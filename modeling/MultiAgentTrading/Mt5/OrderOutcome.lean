import MultiAgentTrading.Mt5.Bridge
import MultiAgentTrading.Lib.Runs
import Mathlib.Data.List.Perm.Subperm

/-!
# What a raised order has executed

Every command that can still be executed, and every execution, is a token: the command's id with the proposal it orders
for.  Steps move tokens and drop them, and only a new command adds one.  So a call that raises while its command has no
token has executed nothing and never will, and a proposal whose tokens are never doubled is executed at most once.
-/

namespace MultiAgentTrading.Mt5

open Runs
open scoped List

namespace Bridge

/-- The commands that the terminal may still execute. -/
def commands (s : Bridge) : List Command := s.commandQueue ++ s.ea.toList

/-- Id and proposal of the commands that may still be executed and of those that were. -/
def tokens (s : Bridge) : List (ℕ × Option ℕ) :=
  s.commands.map (fun c => (c.id, c.proposalId?)) ++ s.executed.map fun x => (x.commandId, some x.proposalId)

/-- A command that was given out, and has not been and will not be executed. -/
def Spent (s : Bridge) (commandId : ℕ) : Prop := commandId < s.nextId ∧ commandId ∉ s.tokens.map Prod.fst

instance (s : Bridge) (commandId : ℕ) : Decidable (s.Spent commandId) := inferInstanceAs (Decidable (_ ∧ _))

/-- The steps that keep the two parties in agreement: an order is queued only if no command for its proposal may still
be executed or has been, a call gives up only when its command has neither a chance left nor been executed, and no order
is done in part. -/
def Orderly (mt5 : MT5Settings) (s : Bridge) : BridgeEvent → Prop
  | .placeOrder a => (placeOrderCommand mt5 a).isOk = true → a.proposalId ∉ s.tokens.filterMap Prod.snd
  | .execute send _ => send.ok = true → send.retcode = tradeRetcodeDonePartial → send.volume ≤ 0
  | .timeout i => ∀ call ∈ s.calls[i]?, ∀ id ∈ call.commandId, id ∉ s.tokens.map Prod.fst
  | _ => True

instance Orderly.decidable (mt5 : MT5Settings) (s : Bridge) : ∀ e, Decidable (Orderly mt5 s e)
  | .placeOrder a =>
    inferInstanceAs (Decidable ((placeOrderCommand mt5 a).isOk = true → a.proposalId ∉ s.tokens.filterMap Prod.snd))
  | .execute send _ =>
    inferInstanceAs (Decidable (send.ok = true → send.retcode = tradeRetcodeDonePartial → send.volume ≤ 0))
  | .timeout i =>
    match h : s.calls[i]? with
    | none => isTrue fun call hc => by rw [h] at hc; cases hc
    | some call =>
      match h' : call.commandId with
      | none => isTrue fun call' hc id hid => by rw [h] at hc; cases hc; rw [h'] at hid; cases hid
      | some id =>
        decidable_of_iff (id ∉ s.tokens.map Prod.fst)
          ⟨fun hp call' hc id' hid => by rw [h] at hc; cases hc; rw [h'] at hid; cases hid; exact hp,
            fun hp => hp call h id h'⟩
  | .request _ => isTrue trivial
  | .poll _ => isTrue trivial
  | .deliver _ => isTrue trivial
  | .losePost _ => isTrue trivial
  | .resume _ => isTrue trivial
  | .abandon _ => isTrue trivial

/-! ### What a step does to the tokens -/

/-- The execution of a command uses up its token or keeps it. -/
private theorem executeAction_tokens (c : Command) (send : SendReply) (other : EaReply) :
    ((executeAction c send other).2.map fun x => (x.commandId, some x.proposalId)) <+~ [(c.id, c.proposalId?)] := by
  unfold executeAction Command.proposalId?
  split
  case h_1 order haction =>
    dsimp only
    split
    · exact .refl _
    · exact List.nil_subperm
  case h_2 => exact List.nil_subperm

private theorem tokens_enqueue (s : Bridge) (action : CommandAction) :
    (s.enqueue action).tokens.Perm ((s.nextId, Command.proposalId? ⟨s.nextId, action⟩) :: s.tokens) := by
  simp only [tokens, commands, enqueue, List.map_append, List.map_cons, List.map_nil, List.append_assoc]
  exact List.perm_middle

private theorem tokens_handleResult (s : Bridge) (commandId : ℕ) (reply : EaReply) :
    (s.handleResult commandId reply).tokens = s.tokens ∧ (s.handleResult commandId reply).nextId = s.nextId := by
  unfold handleResult
  split <;> exact ⟨rfl, rfl⟩

/-- When the advisor executes its command, the token goes from the command to the execution, or is dropped. -/
private theorem tokens_execute {s : Bridge} {c : Command} (hea : s.ea = some c) (send : SendReply) (other : EaReply) :
    ({ s with
        ea := none, posts := s.posts ++ [(c.id, (executeAction c send other).1)]
        executed := s.executed ++ (executeAction c send other).2 } : Bridge).tokens <+~ s.tokens := by
  have hold : s.tokens = s.commandQueue.map (fun c => (c.id, c.proposalId?)) ++ ([(c.id, c.proposalId?)] ++
      s.executed.map fun x => (x.commandId, some x.proposalId)) := by
    simp [tokens, commands, hea]
  have hnew : ({ s with
      ea := none, posts := s.posts ++ [(c.id, (executeAction c send other).1)]
      executed := s.executed ++ (executeAction c send other).2 } : Bridge).tokens =
      s.commandQueue.map (fun c => (c.id, c.proposalId?)) ++
        (s.executed.map (fun x => (x.commandId, some x.proposalId)) ++
          (executeAction c send other).2.map fun x => (x.commandId, some x.proposalId)) := by
    simp [tokens, commands]
  rw [hold, hnew, List.subperm_append_left]
  exact List.perm_append_comm.subperm.trans ((List.subperm_append_right _).2 (executeAction_tokens c send other))

/-- A step drops tokens and moves them; only a new command has a new token, with a new id. -/
theorem step_tokens {mt5 : MT5Settings} {s s' : Bridge} {e : BridgeEvent} (h : step mt5 s e = some s') :
    (s'.tokens <+~ s.tokens ∧ s.nextId ≤ s'.nextId) ∨
      ∃ p, s'.tokens.Perm ((s.nextId, p) :: s.tokens) ∧ s'.nextId = s.nextId + 1 ∧
        ∀ pid, p = some pid → ∃ a, e = .placeOrder a ∧ (placeOrderCommand mt5 a).isOk = true ∧ a.proposalId = pid := by
  cases stepped_of_step h with
  | refused => exact .inl ⟨.refl _, le_rfl⟩
  | @ordered a order horder =>
    refine .inr ⟨_, tokens_enqueue s (.placeOrder order), rfl, ?_⟩
    intro pid hpid
    refine ⟨a, rfl, by rw [horder]; rfl, ?_⟩
    have hproposal : order.proposalId = a.proposalId := proposalId_placeOrderCommand horder
    rw [← hproposal]
    exact Option.some.inj hpid
  | requested action => exact .inr ⟨_, tokens_enqueue s (.other action), rfl, fun pid hpid => by cases hpid⟩
  | @fetched c rest hqueue hea =>
    -- the token goes with the command
    refine .inl ⟨List.Perm.subperm ?_, le_rfl⟩
    simp only [tokens, commands, hqueue, hea, Option.toList_none, Option.toList_some, List.append_nil]
    exact (List.perm_append_singleton c rest).map _ |>.append_right _
  | @commandLost c rest hqueue =>
    refine .inl ⟨List.Sublist.subperm ?_, le_rfl⟩
    simp only [tokens, commands, hqueue]
    exact ((List.sublist_cons_self c rest).append_right _ |>.map _).append_right _
  | executed send other hea => exact .inl ⟨tokens_execute hea send other, le_rfl⟩
  | @delivered i post hpost =>
    obtain ⟨htokens, hid⟩ := tokens_handleResult { s with posts := s.posts.eraseIdx i } post.1 post.2
    rw [htokens, hid]
    exact .inl ⟨.refl _, le_rfl⟩
  | postLost i => exact .inl ⟨.refl _, le_rfl⟩
  | resumed => exact .inl ⟨.refl _, Nat.le_succ _⟩
  | timedOut => exact .inl ⟨.refl _, le_rfl⟩
  | abandoned commandId => exact .inl ⟨.refl _, le_rfl⟩

/-- A spent command stays spent. -/
theorem Spent.step {mt5 : MT5Settings} {s s' : Bridge} {e : BridgeEvent} {id : ℕ} (h : s.Spent id)
    (hstep : step mt5 s e = some s') : s'.Spent id := by
  obtain ⟨hlt, hid⟩ := h
  rcases step_tokens hstep with ⟨hsub, hnext⟩ | ⟨p, hperm, hnext, -⟩
  · exact ⟨hlt.trans_le hnext, fun hmem => hid (List.map_subset _ hsub.subset hmem)⟩
  · refine ⟨by rw [hnext]; exact hlt.trans (Nat.lt_succ_self _), fun hmem => ?_⟩
    rcases List.mem_cons.1 (List.map_subset Prod.fst hperm.subset hmem) with heq | hold
    · exact absurd heq hlt.ne
    · exact hid hold

/-! ### Orderly runs -/

end Bridge

/-- A call that has raised or is going to: its answer is an error. -/
def PlaceCall.Failed (call : PlaceCall) : Prop :=
  match call.phase with
  | .answered reply => reply.status = .error
  | .raised _ => True
  | _ => False

namespace Bridge

/-- What orderly steps keep: no id and no proposal has two tokens, and a command is spent once an error was posted for
it or its call has failed. -/
structure Ordered (s : Bridge) : Prop where
  ids : (s.tokens.map Prod.fst).Nodup
  pids : (s.tokens.filterMap Prod.snd).Nodup
  lt : ∀ id ∈ s.tokens.map Prod.fst, id < s.nextId
  posts : ∀ post ∈ s.posts, post.2.status = .error → s.Spent post.1
  calls : ∀ call ∈ s.calls, call.Failed → ∀ id ∈ call.commandId, s.Spent id
  calls_lt : ∀ call ∈ s.calls, ∀ id ∈ call.commandId, id < s.nextId

private theorem ordered_init : ({} : Bridge).Ordered :=
  ⟨List.nodup_nil, List.nodup_nil, by simp [tokens, commands], by simp, by simp, by simp⟩

private theorem nodup_of_subperm {α : Type*} {l l' : List α} (h : l <+~ l') (hnodup : l'.Nodup) : l.Nodup := by
  obtain ⟨l₀, hperm, hsub⟩ := h
  exact hperm.nodup_iff.1 (hnodup.sublist hsub)

private theorem subperm_filterMap {α β : Type*} {l l' : List α} (f : α → Option β) (h : l <+~ l') :
    l.filterMap f <+~ l'.filterMap f := by
  obtain ⟨l₀, hperm, hsub⟩ := h
  exact ⟨l₀.filterMap f, hperm.filterMap f, hsub.filterMap f⟩

private theorem subperm_map {α β : Type*} {l l' : List α} (f : α → β) (h : l <+~ l') : l.map f <+~ l'.map f := by
  obtain ⟨l₀, hperm, hsub⟩ := h
  exact ⟨l₀.map f, hperm.map f, hsub.map f⟩

/-- The three facts about the tokens, after an orderly step. -/
private theorem Ordered.tokens_step {mt5 : MT5Settings} {s s' : Bridge} {e : BridgeEvent} (h : s.Ordered)
    (hC : Orderly mt5 s e) (hstep : step mt5 s e = some s') :
    (s'.tokens.map Prod.fst).Nodup ∧ (s'.tokens.filterMap Prod.snd).Nodup ∧
      (∀ id ∈ s'.tokens.map Prod.fst, id < s'.nextId) ∧ s.nextId ≤ s'.nextId := by
  rcases step_tokens hstep with ⟨hsub, hnext⟩ | ⟨p, hperm, hnext, hp⟩
  · refine ⟨nodup_of_subperm (subperm_map _ hsub) h.ids, nodup_of_subperm (subperm_filterMap _ hsub) h.pids, ?_, hnext⟩
    intro id hid
    exact (h.lt id (List.map_subset _ hsub.subset hid)).trans_le hnext
  · refine ⟨?_, ?_, ?_, by omega⟩
    · rw [(hperm.map Prod.fst).nodup_iff, List.map_cons, List.nodup_cons]
      exact ⟨fun hmem => absurd (h.lt _ hmem) (lt_irrefl _), h.ids⟩
    · rw [(hperm.filterMap Prod.snd).nodup_iff]
      cases p with
      | none => exact h.pids
      | some pid =>
        obtain ⟨a, rfl, hok, rfl⟩ := hp pid rfl
        exact List.nodup_cons.2 ⟨hC hok, h.pids⟩
    · intro id hid
      rcases List.mem_cons.1 (List.map_subset Prod.fst hperm.subset hid) with heq | hold
      · rw [heq, hnext]
        exact Nat.lt_succ_self _
      · rw [hnext]
        exact (h.lt id hold).trans (Nat.lt_succ_self _)

/-- An order that is answered with an error has executed nothing, unless it was done in part. -/
private theorem executed_of_error {c : Command} {send : SendReply} {other : EaReply}
    (hC : send.ok = true → send.retcode = tradeRetcodeDonePartial → send.volume ≤ 0)
    (herror : (executeAction c send other).1.status = .error) : (executeAction c send other).2 = [] := by
  unfold executeAction at herror ⊢
  split at herror
  case h_2 haction => rfl
  case h_1 order haction =>
    dsimp only at herror ⊢
    refine if_neg (not_lt.2 ?_)
    unfold handlePlaceOrder at herror ⊢
    split at herror
    case isTrue hinvalid => rw [if_pos hinvalid]
    case isFalse hvalid =>
      split at herror
      case isFalse => cases herror
      case isTrue hrefused =>
        rw [if_neg hvalid, if_pos hrefused]
        show send.executedVolume ≤ 0
        unfold SendReply.executedVolume
        split
        case isFalse => exact le_rfl
        case isTrue hdone =>
          obtain ⟨hok, hret⟩ := hdone
          rcases hrefused with hnot | hnotDone
          · rw [hok] at hnot
            cases hnot
          · exact hC hok (hret.resolve_left hnotDone)

/-- When the advisor executes its command and posts an error, the command is spent. -/
private theorem spent_execute {s s' : Bridge} {c : Command} {send : SendReply} {other : EaReply} (h : s.Ordered)
    (hC : send.ok = true → send.retcode = tradeRetcodeDonePartial → send.volume ≤ 0) (hea : s.ea = some c)
    (hs' : s' = { s with
      ea := none, posts := s.posts ++ [(c.id, (executeAction c send other).1)]
      executed := s.executed ++ (executeAction c send other).2 })
    (herror : (executeAction c send other).1.status = .error) : s'.Spent c.id := by
  have hperm : s.tokens.Perm ((c.id, c.proposalId?) :: s'.tokens) := by
    rw [hs', executed_of_error hC herror]
    simp only [tokens, commands, hea, Option.toList_some, Option.toList_none, List.map_append, List.map_cons,
      List.map_nil, List.append_assoc, List.append_nil]
    exact List.perm_middle
  have hids := (hperm.map Prod.fst).nodup_iff.1 h.ids
  refine ⟨?_, (List.nodup_cons.1 hids).1⟩
  rw [hs']
  exact h.lt c.id (List.map_subset Prod.fst hperm.symm.subset (by simp))

/-- A call that fails by being answered got an error for its command. -/
private theorem failed_answer {id : ℕ} {reply : EaReply} {call : PlaceCall} (h : (call.answer id reply).Failed) :
    call.Failed ∨ (reply.status = .error ∧ call.commandId = some id) := by
  unfold PlaceCall.answer at h
  split at h
  case h_2 => exact .inl h
  case h_1 hwaiting =>
    split at h
    case isTrue hid => exact .inr ⟨h, hid⟩
    case isFalse => exact .inl h

private theorem commandId_answer (id : ℕ) (reply : EaReply) (call : PlaceCall) :
    (call.answer id reply).commandId = call.commandId := by
  unfold PlaceCall.answer
  split
  · split <;> rfl
  · rfl

private theorem failed_ofResult {a : RiskAssessment ℚ} {volume : ℚ} {resultId : ℕ} {reply : EaReply}
    {call : PlaceCall} (h : call.phase = CallPhase.ofResult (placeOrderResult a volume resultId reply))
    (hfailed : call.Failed) : reply.status = .error := by
  by_contra hne
  rw [placeOrderResult, if_neg hne] at h
  unfold PlaceCall.Failed at hfailed
  rw [h] at hfailed
  exact hfailed

/-- The calls after an orderly step have given out ids, and those that failed have spent commands. -/
private theorem Ordered.calls_step {mt5 : MT5Settings} {s s' : Bridge} {e : BridgeEvent} (h : s.Ordered)
    (hC : Orderly mt5 s e) (hstep : step mt5 s e = some s') :
    ∀ call ∈ s'.calls, ∀ id ∈ call.commandId, id < s'.nextId ∧ (call.Failed → s.Spent id) := by
  have hnext := (h.tokens_step hC hstep).2.2.2
  have hold : ∀ call ∈ s.calls, ∀ id ∈ call.commandId, id < s'.nextId ∧ (call.Failed → s.Spent id) :=
    fun call hcall id hid =>
      ⟨(h.calls_lt call hcall id hid).trans_le hnext, fun hfailed => h.calls call hcall hfailed id hid⟩
  cases stepped_of_step hstep with
  | refused =>
    intro call hcall id hid
    rcases List.mem_append.1 hcall with hcall | hcall
    · exact hold call hcall id hid
    · rw [List.mem_singleton.1 hcall] at hid
      cases hid
  | ordered =>
    intro call hcall id hid
    rcases List.mem_append.1 hcall with hcall | hcall
    · exact hold call hcall id hid
    · rw [List.mem_singleton.1 hcall] at hid ⊢
      obtain rfl : s.nextId = id := Option.some.inj hid
      exact ⟨Nat.lt_succ_self _, fun hfailed => hfailed.elim⟩
  | requested action => exact hold
  | fetched => exact hold
  | commandLost => exact hold
  | executed send other hea => exact hold
  | @delivered i post hpost =>
    have hmem : post ∈ s.posts := List.mem_of_getElem? hpost
    unfold handleResult at hold ⊢
    split at hold
    case isFalse hfuture => rw [if_neg hfuture]; exact hold
    case isTrue hfuture =>
      rw [if_pos hfuture]
      intro call hcall id hid
      obtain ⟨call', hcall', rfl⟩ := List.mem_map.1 hcall
      rw [commandId_answer] at hid
      refine ⟨(hold call' hcall' id hid).1, fun hfailed => ?_⟩
      rcases failed_answer hfailed with hfailed' | ⟨herror, hcommand⟩
      · exact (hold call' hcall' id hid).2 hfailed'
      · rw [hcommand] at hid
        obtain rfl : post.1 = id := Option.some.inj hid
        exact h.posts post hmem herror
  | postLost i => exact hold
  | @resumed i call₀ reply hcall₀ hphase =>
    have hmem : call₀ ∈ s.calls := List.mem_of_getElem? hcall₀
    intro call hcall id hid
    rcases List.mem_or_eq_of_mem_set hcall with hcall | rfl
    · exact hold call hcall id hid
    · refine ⟨(hold call₀ hmem id hid).1, fun hfailed => ?_⟩
      have herror := failed_ofResult rfl hfailed
      exact (hold call₀ hmem id hid).2 (by rw [PlaceCall.Failed, hphase]; exact herror)
  | @timedOut i call₀ hcall₀ =>
    have hmem : call₀ ∈ s.calls := List.mem_of_getElem? hcall₀
    intro call hcall id hid
    rcases List.mem_or_eq_of_mem_set hcall with hcall | rfl
    · exact hold call hcall id hid
    · -- an orderly timeout comes when the command has no token left
      exact ⟨(hold call₀ hmem id hid).1, fun _ => ⟨h.calls_lt call₀ hmem id hid, hC call₀ hcall₀ id hid⟩⟩
  | abandoned commandId => exact hold

/-- The posts after an orderly step: those before, and an error only for a command that is spent. -/
private theorem Ordered.posts_step {mt5 : MT5Settings} {s s' : Bridge} {e : BridgeEvent} (h : s.Ordered)
    (hC : Orderly mt5 s e) (hstep : step mt5 s e = some s') :
    ∀ post ∈ s'.posts, post.2.status = .error → s'.Spent post.1 := by
  have hold : ∀ post ∈ s.posts, post.2.status = .error → s'.Spent post.1 :=
    fun post hpost herror => (h.posts post hpost herror).step hstep
  have herase : ∀ i, ∀ post ∈ s.posts.eraseIdx i, post.2.status = .error → s'.Spent post.1 :=
    fun i post hpost => hold post ((List.eraseIdx_sublist ..).subset hpost)
  cases stepped_of_step hstep with
  | refused => exact hold
  | ordered => exact hold
  | requested action => exact hold
  | fetched => exact hold
  | commandLost => exact hold
  | executed send other hea =>
    intro post hpost herror
    rcases List.mem_append.1 hpost with hpost | hpost
    · exact hold post hpost herror
    · rw [List.mem_singleton.1 hpost] at herror ⊢
      exact spent_execute h hC hea rfl herror
  | @delivered i post hpost =>
    unfold handleResult at herase ⊢
    split at herase
    case isFalse hfuture => rw [if_neg hfuture]; exact herase i
    case isTrue hfuture => rw [if_pos hfuture]; exact herase i
  | postLost i => exact herase i
  | resumed => exact hold
  | timedOut => exact hold
  | abandoned commandId => exact hold

theorem Ordered.step {mt5 : MT5Settings} {s s' : Bridge} {e : BridgeEvent} (h : s.Ordered)
    (hC : Orderly mt5 s e) (hstep : step mt5 s e = some s') : s'.Ordered := by
  obtain ⟨hids, hpids, hlt, -⟩ := h.tokens_step hC hstep
  have hcalls := h.calls_step hC hstep
  exact ⟨hids, hpids, hlt, h.posts_step hC hstep,
    fun call hcall hfailed id hid => ((hcalls call hcall id hid).2 hfailed).step hstep,
    fun call hcall id hid => (hcalls call hcall id hid).1⟩

end Bridge

/-- Whether a call has raised. -/
def PlaceCall.hasRaised (call : PlaceCall) : Bool :=
  match call.phase with
  | .raised _ => true
  | _ => false

private theorem PlaceCall.failed_of_hasRaised {call : PlaceCall} (h : call.hasRaised = true) : call.Failed := by
  unfold PlaceCall.hasRaised at h
  unfold PlaceCall.Failed
  split at h
  case h_1 e hphase => rw [hphase]; trivial
  case h_2 => cases h

/-- In an orderly run no proposal is executed twice, and nothing is ever executed for the command of a call that has
raised, however the run goes on. -/
theorem order_outcome_agrees {mt5 : MT5Settings} {es es' : List BridgeEvent} {s t : Bridge}
    (hC : Along (Bridge.step mt5) (Bridge.Orderly mt5) {} (es ++ es'))
    (hs : exec (Bridge.step mt5) {} es = some s) (ht : exec (Bridge.step mt5) s es' = some t) :
    (t.executed.map Execution.proposalId).Nodup ∧
      ∀ call ∈ s.calls, call.hasRaised = true → ∀ x ∈ t.executed, call.commandId ≠ some x.commandId := by
  have hrun : exec (Bridge.step mt5) {} (es ++ es') = some t := by
    rw [exec_append, hs]
    exact ht
  have hstep : ∀ s e s', Bridge.Ordered s → Bridge.Orderly mt5 s e → Bridge.step mt5 s e = some s' → s'.Ordered :=
    fun _ _ _ hs hC hstep => hs.step hC hstep
  have hordered_s := exec_invariant_along Bridge.Ordered hstep Bridge.ordered_init hC.of_append hs
  have hordered_t := exec_invariant_along Bridge.Ordered hstep Bridge.ordered_init hC hrun
  refine ⟨?_, ?_⟩
  · have hpids := hordered_t.pids
    rw [Bridge.tokens, List.filterMap_append, List.nodup_append] at hpids
    have hexecuted : (t.executed.map fun x => (x.commandId, some x.proposalId)).filterMap Prod.snd =
        t.executed.map Execution.proposalId := by
      rw [List.filterMap_map, ← List.filterMap_eq_map]
      rfl
    rw [← hexecuted]
    exact hpids.2.1
  · intro call hcall hraised x hx hid
    have hfailed := PlaceCall.failed_of_hasRaised hraised
    have hspent : t.Spent x.commandId :=
      exec_invariant (fun s : Bridge => s.Spent x.commandId) (fun _ _ _ hs hstep => hs.step hstep)
        (hordered_s.calls call hcall hfailed _ hid) ht
    refine hspent.2 (List.mem_map.2 ⟨(x.commandId, some x.proposalId), ?_, rfl⟩)
    exact List.mem_append_right _ (List.mem_map.2 ⟨x, hx, rfl⟩)

/-- A buy of two units at a price of a hundred. -/
def buyTwo (proposalId : ℕ) : RiskAssessment ℚ :=
  PaperBroker.plainOrder proposalId "BTC/USDT" .buy 200 two_hundred_pos 100

def doneReply : SendReply := { ok := true, retcode := tradeRetcodeDone, volume := 2, price := 100 }

/-- One order is executed and answered; the command of another is lost on its way to the advisor, and its call gives
up. -/
def answeredAndLost : List BridgeEvent :=
  [.placeOrder (buyTwo 1), .poll true, .execute doneReply { status := .ok }, .deliver 0, .resume 0,
    .placeOrder (buyTwo 2), .poll false, .timeout 1]

/-- The second order is placed again and executed. -/
def placedAgain : List BridgeEvent := [.placeOrder (buyTwo 2), .poll true, .execute doneReply { status := .ok }]

theorem order_outcome_agrees_placedAgain : ∃ s t, exec (Bridge.step {}) {} answeredAndLost = some s ∧
    exec (Bridge.step {}) s placedAgain = some t ∧ t.executed.map Execution.proposalId = [1, 2] ∧
      ((t.executed.map Execution.proposalId).Nodup ∧
        ∀ call ∈ s.calls, call.hasRaised = true → ∀ x ∈ t.executed, call.commandId ≠ some x.commandId) := by
  have hrun : ((exec (Bridge.step {}) {} answeredAndLost).bind fun s =>
      (exec (Bridge.step {}) s placedAgain).map fun t => t.executed.map Execution.proposalId) = some [1, 2] := by
    decide +kernel
  obtain ⟨s, hs, ht⟩ := Option.bind_eq_some_iff.1 hrun
  obtain ⟨t, ht, hpids⟩ := Option.map_eq_some_iff.1 ht
  exact ⟨s, t, hs, ht, hpids, order_outcome_agrees (by decide +kernel) hs ht⟩

/-- A call that gives up while its command is still queued raises, and the advisor executes the command later. -/
theorem executed_after_timeout : ¬ ∀ (mt5 : MT5Settings) (es es' : List BridgeEvent) (s t : Bridge),
    exec (Bridge.step mt5) {} es = some s → exec (Bridge.step mt5) s es' = some t →
      (t.executed.map Execution.proposalId).Nodup ∧
        ∀ call ∈ s.calls, call.hasRaised = true → ∀ x ∈ t.executed, call.commandId ≠ some x.commandId := by
  intro h
  have hrun : ((exec (Bridge.step {}) {} [.placeOrder (buyTwo 1), .timeout 0]).bind fun s =>
      (exec (Bridge.step {}) s [.poll true, .execute doneReply { status := .ok }]).map fun t =>
        decide (∀ call ∈ s.calls, call.hasRaised = true → ∀ x ∈ t.executed, call.commandId ≠ some x.commandId)) =
      some false := by
    decide +kernel
  obtain ⟨s, hs, ht⟩ := Option.bind_eq_some_iff.1 hrun
  obtain ⟨t, ht, hfalse⟩ := Option.map_eq_some_iff.1 ht
  exact of_decide_eq_false hfalse (h {} _ _ s t hs ht).2

end MultiAgentTrading.Mt5
