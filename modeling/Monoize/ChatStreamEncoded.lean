import Monoize.ChatStreamTrace

/-! Every node of a canonical stream reaches the Chat client once. -/

namespace Monoize.Urp

open ChatEncoder List Option Function JsonMap NodeDelta NodeMark ChatSend ChatFrame UrpStreamEvent

variable {e : UrpStreamEvent} {i : Nat} {extra : JsonMap}

variable {ctx : ChatEncoderContext} {limit : Option Nat} {body before after : List UrpStreamEvent} {nodes : List Node}

variable {new : List Shown} {call : ChatToolCall} {header : NodeHeader} {arguments : String}

def Node.UntypedExtras : Node → Prop
  | .reasoning _ _ _ _ _ extra => Untyped (nativeChatDeltaExtra extra)
  | .nextDownstreamEnvelopeExtra extra => Untyped extra
  | _ => True

def UrpStreamEvent.UntypedExtras : UrpStreamEvent → Prop
  | .nodeStart _ .nextDownstreamEnvelopeExtra extra => Untyped extra
  | .responseStart _ _ extra | .nodeStart _ _ extra | .nodeDelta _ _ extra => Untyped (nativeChatDeltaExtra extra)
  | .responseDone _ output extra => Untyped (nativeChatDeltaExtra extra) ∧ ∀ node ∈ output, node.UntypedExtras
  | _ => True

theorem Emits.resetIdx {s s' : ChatEncoder} {n : Nat} (h : Emits ctx limit { s with toolIdx := n } s' new) :
    Emits ctx limit s { s' with toolIdx := s.toolIdx } new := ⟨h.sends, h.untyped, h.finished, rfl, h.toolCalls, h.emitted⟩

theorem Emits.of_eq {s s' : ChatEncoder} {new' : List Shown} (h : Emits ctx limit s s' new) (heq : new' = new) :
    Emits ctx limit s s' new' := heq ▸ h

theorem eventShown_snd {m : NodeMark} (he : e.nodeMark = some (i, m)) :
    (eventShown body nodes e).map (·.2) = m.shown (callIndex body nodes i) (legacyAt body nodes i) := by
  simp [eventShown, he]

/-! The events of the stream. -/

structure OpenCall (body : List UrpStreamEvent) (nodes : List Node) (i : Nat) (before : List UrpStreamEvent)
    (call : ChatToolCall) :
    Prop where
  headerSent : call.headerSent = true
  index : call.index = callIndex body nodes i
  legacy : call.legacyFunctionCall = legacyAt body nodes i
  streamed : call.argumentsStreamed = false → joined NodeDelta.argumentsPart (deltasOf i before) = ""

theorem arguments_of_other (h : ∀ arguments extra, e ≠ .nodeDelta i (.toolCallArguments arguments) extra) :
    joined argumentsPart (deltasOf i [e]) = "" := by
  cases e with
  | nodeDelta j d extra =>
    by_cases hj : j = i
    · subst hj
      cases d with
      | toolCallArguments arguments => exact absurd rfl (h arguments extra)
      | _ => simp [deltasOf, mark, fragment, argumentsPart]
    · simp [deltasOf, mark, hj]
  | nodeStart j _ _ | nodeDone j _ _ =>
    simp only [deltasOf, marks_cons, mark]
    split <;> rfl
  | _ => rfl

theorem OpenCall.keep (h : OpenCall body nodes i before call)
    (hargs : joined argumentsPart (deltasOf i [e]) = "") : OpenCall body nodes i (before ++ [e]) call :=
  ⟨h.headerSent, h.index, h.legacy, fun hno => by rw [deltasOf_append, joined_append, h.streamed hno, hargs]; rfl⟩

structure Streaming (ctx : ChatEncoderContext) (limit : Option Nat) (body : List UrpStreamEvent) (nodes : List Node)
    (before : List UrpStreamEvent) (s : ChatEncoder) : Prop where
  running : s.finished = false
  untyped : Untyped s.pendingEnvelopeExtra
  tells : Tells ctx limit s.sends ((before.flatMap (eventShown body nodes)).map (·.2))
  toolIdx : s.toolIdx = (before.filterMap UrpStreamEvent.toolStart).length
  emitted : ∀ i, i ∈ s.emittedNodeIndices ↔ before.any (·.emits i) = true
  calls : ∀ i ∈ before.filterMap UrpStreamEvent.toolStart, (∀ node, NodeMark.done node ∉ marks i before) →
    ∃ call, s.toolCalls i = some call ∧ OpenCall body nodes i before call

namespace CanonicalStream

variable {i : Nat} {id : Option String} {toolType : ToolCallType} {callId name : String} {extra : JsonMap}

theorem legacyAt_start (h : CanonicalStream (before ++ .nodeStart i (.toolCall id toolType callId name) extra :: after) nodes) :
    legacyAt (before ++ .nodeStart i (.toolCall id toolType callId name) extra :: after) nodes i =
      isLegacyFunctionCall toolType extra := by
  have hmark : (UrpStreamEvent.nodeStart i (.toolCall id toolType callId name) extra).mark i =
      some (.start (.toolCall id toolType callId name)) := by simp [UrpStreamEvent.mark]
  obtain ⟨node, header, deltas, hnode, hall, -⟩ := h.at_mark hmark
  rcases mark_position hall with ⟨hm, hxs⟩ | ⟨d, ds, hm, -⟩ | ⟨hm, -⟩
  · rw [hxs] at hall
    have hafter := (cons.inj hall).2
    have hstarted : marks i (before ++ .nodeStart i (.toolCall id toolType callId name) extra :: after) ≠ [] := by simp [hmark]
    have hbefore : startsLegacy i before = false := startsLegacy_of_unstarted (by simp [hxs])
    have hrest : startsLegacy i after = false := startsLegacy_of_unstarted (by simp [hafter])
    have hone : startsLegacy i [.nodeStart i (.toolCall id toolType callId name) extra] =
        isLegacyFunctionCall toolType extra := by
      simp [startsLegacy, UrpStreamEvent.startsLegacy]
    rw [legacyAt, hnode, any_some, legacyCall, if_neg hstarted, ← singleton_append, startsLegacy_append,
      startsLegacy_append, hbefore, hrest, hone]
    simp
  · cases hm
  · cases hm

theorem callIndex_start
    (h : CanonicalStream (before ++ .nodeStart i (.toolCall id toolType callId name) extra :: after) nodes) :
    callIndex (before ++ .nodeStart i (.toolCall id toolType callId name) extra :: after) nodes i =
      (before.filterMap toolStart).length := by
  have hfresh : i ∉ before.filterMap toolStart := fun hmem =>
    marks_ne_nil_of_emits (emits_of_mem_toolStart hmem) h.at_start.1
  rw [callIndex, callOrder, filterMap_append, append_assoc, idxOf_append_of_notMem hfresh]
  simp [toolStart]

end CanonicalStream

namespace Streaming

variable {s s' s'' : ChatEncoder} {e : UrpStreamEvent} {i : Nat}

theorem initial : Streaming ctx limit body nodes [] {} := ⟨rfl, .nil, .nil, rfl, by simp, by simp⟩

theorem mem_toolStart {node : Node} {ms : List NodeMark} (hmarks : marks i before = .start header :: ms)
    (hdesc : header.Describes node) (hcall : node.call.isSome = true) : i ∈ before.filterMap toolStart := by
  obtain ⟨id, toolType, callId, name, rfl⟩ := hdesc.toolCall hcall
  have hstart : start (.toolCall id toolType callId name) ∈ marks i before := by
    rw [hmarks]
    exact mem_cons_self ..
  exact (emits_of_toolStart hstart).2

variable (h : Streaming ctx limit body nodes before s)

include h

theorem quiet (hemits : Emits ctx limit s s' []) : Streaming ctx limit body nodes before s' where
  running := hemits.finished.trans h.running
  untyped := hemits.untyped
  tells := by
    obtain ⟨sent, hsent, htells⟩ := hemits.sends
    rw [hsent]
    simpa using h.tells.append htells
  toolIdx := hemits.toolIdx.trans h.toolIdx
  emitted := by
    rw [hemits.emitted]
    exact h.emitted
  calls := by
    rw [hemits.toolCalls]
    exact h.calls

theorem others (hstart : e.toolStart ≠ some i)
    (hargs : ∀ arguments extra, e ≠ .nodeDelta i (.toolCallArguments arguments) extra)
    (hmem : i ∈ (before ++ [e]).filterMap toolStart) (hdone : ∀ node, done node ∉ marks i (before ++ [e])) :
    ∃ call, s.toolCalls i = some call ∧ OpenCall body nodes i (before ++ [e]) call := by
  have hbefore : i ∈ before.filterMap toolStart := by
    rw [filterMap_append, mem_append] at hmem
    rcases hmem with hmem | hmem
    · exact hmem
    · obtain ⟨x, hx, hxi⟩ := mem_filterMap.mp hmem
      rw [mem_singleton.mp hx] at hxi
      exact absurd hxi hstart
  obtain ⟨call, hcall, hopen⟩ := h.calls i hbefore fun node hn => hdone node (by rw [marks_append]; exact mem_append_left _ hn)
  exact ⟨call, hcall, hopen.keep (arguments_of_other hargs)⟩

variable (hemits : Emits ctx limit s s' ((eventShown body nodes e).map (·.2)))

include hemits

theorem step (hsame : s'' = { s' with
      toolIdx := s''.toolIdx, emittedNodeIndices := s''.emittedNodeIndices, toolCalls := s''.toolCalls })
    (hidx : s''.toolIdx = s.toolIdx + e.toolStart.toList.length)
    (hids : ∀ i, i ∈ s''.emittedNodeIndices ↔ i ∈ s.emittedNodeIndices ∨ e.emits i = true)
    (hcalls : ∀ i ∈ (before ++ [e]).filterMap toolStart, (∀ node, done node ∉ marks i (before ++ [e])) →
      ∃ call, s''.toolCalls i = some call ∧ OpenCall body nodes i (before ++ [e]) call) :
    Streaming ctx limit body nodes (before ++ [e]) s'' where
  running := by
    rw [hsame]
    exact hemits.finished.trans h.running
  untyped := by
    rw [hsame]
    exact hemits.untyped
  tells := by
    obtain ⟨sent, hsent, htells⟩ := hemits.sends
    rw [hsame, flatMap_append, flatMap_singleton, map_append]
    exact hsent ▸ h.tells.append htells
  toolIdx := by
    rw [hidx, h.toolIdx, filterMap_append, length_append]
    cases hstart : e.toolStart <;> simp [hstart]
  emitted i := by
    rw [hids, h.emitted]
    simp
  calls := hcalls

theorem pass (hids : ∀ i, i ∈ s''.emittedNodeIndices ↔ i ∈ s'.emittedNodeIndices ∨ e.emits i = true := by
      simp [markEmitted, emits, or_comm, eq_comm])
    (hsame : s'' = { s' with emittedNodeIndices := s''.emittedNodeIndices } := by rfl) (hstart : e.toolStart = none := by rfl)
    (hargs : ∀ i arguments extra, e ≠ .nodeDelta i (.toolCallArguments arguments) extra := by simp) :
    Streaming ctx limit body nodes (before ++ [e]) s'' := by
  have hidx : s''.toolIdx = s'.toolIdx := by rw [hsame]
  have hcalls : s''.toolCalls = s'.toolCalls := by rw [hsame]
  refine h.step hemits (hsame.trans (by rw [hidx, hcalls])) ?_ ?_ ?_
  · rw [hidx, hemits.toolIdx, hstart]
    rfl
  · rw [← hemits.emitted]
    exact hids
  · intro i hi hdone
    rw [hcalls, hemits.toolCalls]
    exact h.others (by simp [hstart]) (hargs i) hi hdone

theorem setCall (hsame : s'' = { s' with
      toolIdx := s''.toolIdx, emittedNodeIndices := s''.emittedNodeIndices, toolCalls := update s'.toolCalls i (some call) })
    (hidx : s''.toolIdx = s.toolIdx + e.toolStart.toList.length)
    (hids : ∀ j, j ∈ s''.emittedNodeIndices ↔ j ∈ s'.emittedNodeIndices ∨ e.emits j = true)
    (hother : ∀ j, j ≠ i → e.toolStart ≠ some j ∧ ∀ arguments extra, e ≠ .nodeDelta j (.toolCallArguments arguments) extra)
    (hopen : (∀ node, done node ∉ marks i (before ++ [e])) → OpenCall body nodes i (before ++ [e]) call) :
    Streaming ctx limit body nodes (before ++ [e]) s'' := by
  have hcalls : s''.toolCalls = update s'.toolCalls i (some call) := by rw [hsame]
  refine h.step hemits (hsame.trans (by rw [hcalls])) hidx (hemits.emitted ▸ hids) ?_
  intro j hj hdone
  rw [hcalls]
  by_cases hij : j = i
  · subst hij
    exact ⟨call, update_self .., hopen hdone⟩
  · rw [update_of_ne hij, hemits.toolCalls]
    exact h.others (hother j hij).1 (hother j hij).2 hj hdone

omit hemits

theorem toolDelta
    (hmem : i ∈ before.filterMap toolStart) (hdone : ∀ node, done node ∉ marks i before)
    (hextra : Untyped (nativeChatDeltaExtra extra)) :
    Streaming ctx limit body nodes (before ++ [.nodeDelta i (.toolCallArguments arguments) extra])
      (streamToolCallArguments ctx i arguments extra s) := by
  obtain ⟨call, hcall, hopen⟩ := h.calls i hmem hdone
  have hsee := @seeToolCall_emits ctx limit _ h.untyped call.legacyFunctionCall
  have hemits := hsee.trans (emitToolCallArgumentsDelta_emits hsee.untyped call arguments hextra)
  unfold streamToolCallArguments emitToolCallHeader
  simp only [hcall]
  obtain ⟨toolType, callId, name, index, legacy, headerSent, streamed⟩ := call
  obtain ⟨rfl, hindex, hlegacy, -⟩ := hopen
  refine h.setCall (hemits.of_eq ?_) rfl hemits.toolIdx ?_ ?_ fun _ => ?_
  · rw [eventShown_snd rfl, ← hindex, ← hlegacy]
    rfl
  · simp [emits]
  · intro j hj
    simp [toolStart, Ne.symm hj]
  · exact ⟨rfl, hindex, hlegacy, by simp⟩

theorem toolDone {id : Option String} {toolType : ToolCallType}
    {callId name : String} {extra' : JsonMap} (hmem : i ∈ before.filterMap toolStart)
    (hdone : ∀ node, done node ∉ marks i before) (hargs : joined argumentsPart (deltasOf i before) = arguments) :
    Streaming ctx limit body nodes (before ++ [.nodeDone i (.toolCall id toolType callId name arguments extra) extra'])
      (completeToolCall ctx i toolType callId name arguments extra s) := by
  obtain ⟨call, hcall, hopen⟩ := h.calls i hmem hdone
  have hsee := @seeToolCall_emits ctx limit _ h.untyped (isLegacyFunctionCall toolType extra)
  have hcalls : (s.seeToolCall (isLegacyFunctionCall toolType extra)).toolCalls i = some call := by rw [hsee.toolCalls, hcall]
  have hnone : ¬ (arguments ≠ "" ∧ ¬ call.argumentsStreamed = true) := by
    rintro ⟨hne, hno⟩
    exact hne (hargs ▸ hopen.streamed (by simpa using hno))
  unfold completeToolCall emitToolCallHeader
  simp only [hcalls, hopen.headerSent, if_true, hnone]
  refine h.setCall (hsee.of_eq rfl) rfl hsee.toolIdx ?_ ?_ fun hnot => ?_
  · simp [markEmitted, emits, or_comm, eq_comm]
  · simp [toolStart]
  · exact absurd (by simp [mark]) (hnot (.toolCall id toolType callId name arguments extra))

variable (hcanon : CanonicalStream body nodes)

include hcanon

theorem toolStart {id : Option String} {toolType : ToolCallType} {callId name : String}
    (hbody : body = before ++ .nodeStart i (.toolCall id toolType callId name) extra :: after)
    (hextra : Untyped (nativeChatDeltaExtra extra)) :
    Streaming ctx limit body nodes (before ++ [.nodeStart i (.toolCall id toolType callId name) extra])
      (startToolCall ctx i toolType callId name extra s) := by
  subst hbody
  have hsee := @seeToolCall_emits ctx limit _ h.untyped (isLegacyFunctionCall toolType extra)
  have hindex := hsee.toolIdx.trans (h.toolIdx.trans hcanon.callIndex_start.symm)
  have hdeltas : deltasOf i before = [] := by rw [deltasOf, hcanon.at_start.1]; rfl
  unfold startToolCall
  dsimp only
  generalize s.seeToolCall (isLegacyFunctionCall toolType extra) = s₁ at hsee hindex ⊢
  obtain ⟨hcall, hheader⟩ := @emitToolCallHeader_emits ctx limit { s₁ with toolIdx := s₁.toolIdx + 1 } hsee.untyped
    ⟨toolType, callId, name, s₁.toolIdx, isLegacyFunctionCall toolType extra, false, false⟩ rfl extra hextra
  have hemits := hsee.trans hheader.resetIdx
  refine h.setCall (hemits.of_eq ?_) rfl ?_ ?_ ?_ fun _ => ?_
  · rw [eventShown_snd rfl, hcanon.legacyAt_start, ← hindex]
    rfl
  · exact hheader.toolIdx.trans (congrArg (· + 1) hsee.toolIdx)
  · simp [markEmitted, emits, or_comm, eq_comm]
  · intro j hj
    simp [toolStart, Ne.symm hj]
  · rw [hcall]
    refine ⟨rfl, hindex, hcanon.legacyAt_start.symm, fun _ => ?_⟩
    rw [deltasOf_append, joined_append, hdeltas, arguments_of_other (by simp)]
    rfl

theorem nodeStart (hbody : body = before ++ .nodeStart i header extra :: after)
    (hextra : (nodeStart i header extra).UntypedExtras) :
    Streaming ctx limit body nodes (before ++ [.nodeStart i header extra])
      (encodeChatEvent ctx s (.nodeStart i header extra)) := by
  unfold encodeChatEvent
  rw [if_neg (by simp [h.running])]
  cases header with
  | nextDownstreamEnvelopeExtra =>
    exact h.pass (mergePendingEnvelopeExtra_emits h.untyped hextra)
  | toolCall id toolType callId name => exact h.toolStart hcanon hbody hextra
  | _ => exact h.pass (.refl h.untyped)

theorem nodeDelta {d : NodeDelta}
    (hbody : body = before ++ .nodeDelta i d extra :: after) (hextra : Untyped (nativeChatDeltaExtra extra)) :
    Streaming ctx limit body nodes (before ++ [.nodeDelta i d extra]) (encodeChatEvent ctx s (.nodeDelta i d extra)) := by
  obtain ⟨node, header, ds, hnode, hkind, hdesc, hmarks⟩ := (hbody ▸ hcanon).at_delta
  have h₁ := h.quiet (emitChatChoiceExtraChunk_emits h.untyped extra)
  unfold encodeChatEvent
  rw [if_neg (by simp [h.running])]
  cases d with
  | text content | refusal content =>
    exact h₁.pass (sendContent_emits h₁.untyped hextra content)
  | reasoning content encrypted summary source =>
    refine h₁.pass (emitReasoningDelta_emits h₁.untyped content encrypted summary source hextra) ?_ ?_
    · by_cases hsurface : reasoningDeltaHasChatSurface content encrypted summary extra = true
      · simp [markEmitted, emits, hsurface, or_comm, eq_comm]
      · simp [emits, hsurface]
    · dsimp only
      split <;> rfl
  | toolCallArguments arguments =>
    have hcall : node.call.isSome = true := by cases node <;> first | rfl | cases hkind
    exact h₁.toolDelta (mem_toolStart hmarks hdesc hcall) (by simp [hmarks]) hextra
  | _ => exact h₁.pass (.refl h₁.untyped)

theorem nodeDone {node : Node} (hbody : body = before ++ .nodeDone i node extra :: after) :
    Streaming ctx limit body nodes (before ++ [.nodeDone i node extra]) (encodeChatEvent ctx s (.nodeDone i node extra)) := by
  obtain ⟨hnode, header, ds, hdesc, hacc, hmarks⟩ := (hbody ▸ hcanon).at_done
  unfold encodeChatEvent
  rw [if_neg (by simp [h.running])]
  cases node with
  | toolCall id toolType callId name arguments extra' =>
    exact h.toolDone (mem_toolStart hmarks hdesc rfl) (by simp [hmarks]) (by rw [deltasOf_of_marks hmarks]; exact hacc)
  | providerItem id protocol role itemType item extra' =>
    cases protocol with
    | chatCompletion =>
      exact h.pass (emitChatProviderContentPart_emits h.untyped item)
    | _ => exact h.pass (.refl h.untyped)
  | _ => exact h.pass (.refl h.untyped)

theorem event (hbody : body = before ++ e :: after) (hextra : e.UntypedExtras) :
    Streaming ctx limit body nodes (before ++ [e]) (encodeChatEvent ctx s e) := by
  have hopen : e.terminal = false := hcanon.running e (by simp [hbody])
  cases e with
  | responseStart id model extra =>
    have hids : Emits ctx limit s { s with chatId := ctx.chatId, created := ctx.created } [] :=
      ⟨⟨[], by simp, .nil⟩, h.untyped, rfl, rfl, rfl, rfl⟩
    have huntyped : Untyped (mergeChatDeltaExtraPreservingTyped [("role", .string "assistant")] (nativeChatDeltaExtra extra)) :=
      ⟨member_merge (.inr hextra.1), member_merge (.inr hextra.2)⟩
    unfold encodeChatEvent
    rw [if_neg (by simp [h.running])]
    exact h.pass (hids.trans (Emits.sendUntyped hids.untyped huntyped))
  | nodeStart i header extra => exact h.nodeStart hcanon hbody hextra
  | nodeDelta i d extra => exact h.nodeDelta hcanon hbody hextra
  | nodeDone i node extra => exact h.nodeDone hcanon hbody
  | responseDone reason output extra => cases hopen
  | providerControl protocol name data extra =>
    unfold encodeChatEvent
    rw [if_neg (by simp [h.running])]
    exact h.pass (.refl h.untyped)
  | error code message extra => cases hopen

theorem run (hbody : body = before ++ after) (hextra : ∀ e ∈ after, e.UntypedExtras) :
    Streaming ctx limit body nodes body (after.foldl (encodeChatEvent ctx) s) := by
  induction after generalizing before s with
  | nil => simpa [hbody] using h
  | cons e after ih =>
    have h' := h.event hcanon hbody (hextra e (mem_cons_self ..))
    exact ih h' (by simp [hbody]) fun x hx => hextra x (mem_cons_of_mem _ hx)

end Streaming

/-! The nodes that only the output has. -/

theorem Node.shown_of_callless {node : Node} (h : node.call.isSome = false) (k k' : Nat) (legacy legacy' : Bool) :
    node.shown k legacy = node.shown k' legacy' := by
  cases node with
  | toolCall => cases h
  | text id role content phase extra => cases role <;> rfl
  | _ => rfl

theorem emitMissingNode_emits {s : ChatEncoder} (hs : Untyped s.pendingEnvelopeExtra) {node : Node}
    (hextra : node.UntypedExtras) :
    (emitMissingNode ctx node s).toolIdx = s.toolIdx + (if node.call.isSome then 1 else 0) ∧
      Emits ctx limit s { emitMissingNode ctx node s with toolIdx := s.toolIdx } (node.shown s.toolIdx node.isLegacyCall) := by
  have hplain : ∀ {s' : ChatEncoder} {new : List Shown}, Emits ctx limit s s' new → s'.toolIdx = s.toolIdx ∧
      Emits ctx limit s { s' with toolIdx := s.toolIdx } new := fun hemits => ⟨hemits.toolIdx, hemits.toolIdx ▸ hemits⟩
  have htext : ∀ content : String, Emits ctx limit s (if content = "" then s else sendText
      (chatDeltaWithExtras [("content", .string "")] [] s).1 content .content
      (chatDeltaWithExtras [("content", .string "")] [] s).2) (if content = "" then [] else [⟨content, none⟩]) := by
    intro content
    split
    · exact .refl hs
    · exact @sendContent_emits ctx limit s hs [] .nil content
  cases node with
  | toolCall id toolType callId name arguments extra =>
    unfold emitMissingNode
    dsimp only
    have hsee := @seeToolCall_emits ctx limit { s with toolIdx := s.toolIdx + 1 } hs (isLegacyFunctionCall toolType extra)
    generalize seeToolCall { s with toolIdx := s.toolIdx + 1 } _ = s₁ at hsee ⊢
    obtain ⟨hcall, hheader⟩ := @emitToolCallHeader_emits ctx limit s₁ hsee.untyped
      ⟨toolType, callId, name, s.toolIdx, isLegacyFunctionCall toolType extra, false, false⟩ rfl [] .nil
    have hsent := hsee.trans hheader
    rw [hcall]
    split
    · rename_i hempty
      exact ⟨hsent.toolIdx, hsent.resetIdx.of_eq (by simp [Node.shown, Node.isLegacyCall, hempty])⟩
    rename_i hempty
    have hargs := hsent.trans (@emitToolCallArgumentsDelta_emits ctx limit _ hsent.untyped
      ⟨toolType, callId, name, s.toolIdx, isLegacyFunctionCall toolType extra, true, false⟩ arguments [] .nil)
    exact ⟨hargs.toolIdx, hargs.resetIdx.of_eq (by simp [Node.shown, Node.isLegacyCall, hempty])⟩
  | text id role content phase extra =>
    cases role with
    | assistant => exact hplain (htext content)
    | _ => exact hplain (.refl hs)
  | refusal id content extra => exact hplain (htext content)
  | reasoning id content encrypted summary source extra =>
    unfold emitMissingNode
    dsimp only
    split
    · exact hplain (emitReasoningDelta_emits hs content encrypted summary source hextra)
    · exact hplain (.refl hs)
  | providerItem id protocol role itemType item extra =>
    cases protocol with
    | chatCompletion => exact hplain (emitChatProviderContentPart_emits hs item)
    | _ => exact hplain (.refl hs)
  | nextDownstreamEnvelopeExtra extra => exact hplain (mergePendingEnvelopeExtra_emits hs hextra)
  | _ => exact hplain (.refl hs)

structure Completing (ctx : ChatEncoderContext) (limit : Option Nat) (body : List UrpStreamEvent) (nodes : List Node)
    (done : List (Node × Nat)) (s : ChatEncoder) : Prop where
  untyped : Untyped s.pendingEnvelopeExtra
  tells : Tells ctx limit s.sends ((body.flatMap (eventShown body nodes) ++ done.flatMap (missingShown body nodes)).map (·.2))
  toolIdx : s.toolIdx = (body.filterMap UrpStreamEvent.toolStart).length +
    (done.filter fun e => e.1.call.isSome && isMissing body e).length
  emitted : ∀ i, i ∈ s.emittedNodeIndices ↔ body.any (·.emits i) = true

namespace Completing

variable {done rest : List (Node × Nat)} {e : Node × Nat} {s s' : ChatEncoder}

theorem callIndex_missing (hnodes : nodes.zipIdx = done ++ e :: rest) (hcall : e.1.call.isSome = true)
    (hmissing : isMissing body e = true) :
    callIndex body nodes e.2 = (body.filterMap toolStart).length +
      (done.filter fun e => e.1.call.isSome && isMissing body e).length := by
  have hstart : e.2 ∉ body.filterMap toolStart := by
    intro hmem
    simp [isMissing, emits_of_mem_toolStart hmem] at hmissing
  have hfresh : e.2 ∉ (done.filter fun e => e.1.call.isSome && isMissing body e).map (·.2) := by
    have hnodup : (nodes.zipIdx.map (·.2)).Nodup := by
      rw [zipIdx_map_snd]
      exact nodup_range'
    rw [hnodes, map_append, nodup_append] at hnodup
    intro hmem
    obtain ⟨x, hx, hxe⟩ := mem_map.mp hmem
    exact hnodup.2.2 x.2 (mem_map_of_mem (mem_of_mem_filter hx)) e.2 (by simp) hxe
  rw [callIndex, callOrder, idxOf_append_of_notMem hstart, hnodes, filter_append, map_append,
    idxOf_append_of_notMem hfresh, filter_cons_of_pos (by simp [hcall, hmissing])]
  simp

theorem legacyAt_missing (hcanon : CanonicalStream body nodes) (hnode : nodes[e.2]? = some e.1) (hcall : e.1.call.isSome = true)
    (hmissing : isMissing body e = true) : legacyAt body nodes e.2 = e.1.isLegacyCall := by
  have hmarks : marks e.2 body = [] := by
    rcases hcanon.lifecycle e.2 with hnone | ⟨node, header, deltas, hnode', hmarks, hdesc, -⟩
    · exact hnone
    rw [hnode, some_inj] at hnode'
    subst hnode'
    have hstart := Streaming.mem_toolStart hmarks hdesc hcall
    simp [isMissing, emits_of_mem_toolStart hstart] at hmissing
  rw [legacyAt, hnode, any_some, legacyCall, if_pos hmarks]

variable (h : Completing ctx limit body nodes done s)

include h

theorem tell (hemits : Emits ctx limit s { s' with toolIdx := s.toolIdx } ((missingShown body nodes e).map (·.2)))
    (hidx : s'.toolIdx = s.toolIdx + if e.1.call.isSome && isMissing body e then 1 else 0) :
    Completing ctx limit body nodes (done ++ [e]) s' where
  untyped := hemits.untyped
  tells := by
    obtain ⟨sent, hsent, htells⟩ := hemits.sends
    rw [flatMap_append, flatMap_singleton, ← append_assoc, map_append]
    exact hsent ▸ h.tells.append htells
  toolIdx := by
    rw [filter_append, length_append, ← Nat.add_assoc, ← h.toolIdx]
    exact hidx.trans (by split <;> simp_all)
  emitted i := by
    rw [← h.emitted, ← hemits.emitted]

variable (hcanon : CanonicalStream body nodes)

include hcanon

theorem node (hnodes : nodes.zipIdx = done ++ e :: rest) (hextra : e.1.UntypedExtras) :
    Completing ctx limit body nodes (done ++ [e])
      (if s.emittedNodeIndices.contains e.2 then s else emitMissingNode ctx e.1 s) := by
  have hnode : nodes[e.2]? = some e.1 := mem_zipIdx_iff_getElem?.mp (hnodes ▸ by simp)
  have hseen : s.emittedNodeIndices.contains e.2 = !isMissing body e := by
    rw [isMissing, Bool.not_not, Bool.eq_iff_iff, contains_iff_mem]
    exact h.emitted e.2
  rw [hseen]
  cases hmissing : isMissing body e with
  | false =>
    exact h.tell (.of_eq (.refl h.untyped) (by rw [missingShown, if_neg (by simp [hmissing])]; rfl)) (by simp [hmissing])
  | true =>
    have hshown : (missingShown body nodes e).map (·.2) = e.1.shown s.toolIdx e.1.isLegacyCall := by
      rw [missingShown, if_pos hmissing, List.map_map, show (·.2) ∘ (e.2, ·) = (id : Shown → Shown) from rfl, List.map_id]
      cases hcall : e.1.call.isSome with
      | false => exact Node.shown_of_callless hcall ..
      | true => rw [legacyAt_missing hcanon hnode hcall hmissing, callIndex_missing hnodes hcall hmissing, h.toolIdx]
    obtain ⟨hidx, hemits⟩ := @emitMissingNode_emits ctx limit s h.untyped e.1 hextra
    rw [if_neg (by simp)]
    exact h.tell (hemits.of_eq hshown) (by rw [hidx, hmissing, Bool.and_true])

theorem run (hnodes : nodes.zipIdx = done ++ rest) (hextra : ∀ e ∈ rest, e.1.UntypedExtras) :
    Completing ctx limit body nodes nodes.zipIdx
      (rest.foldl (fun s e => if s.emittedNodeIndices.contains e.2 then s else emitMissingNode ctx e.1 s) s) := by
  induction rest generalizing done s with
  | nil => simpa [hnodes] using h
  | cons e rest ih =>
    have h' := h.node hcanon hnodes (hextra e (mem_cons_self ..))
    exact ih h' (by simp [hnodes]) fun x hx => hextra x (mem_cons_of_mem _ hx)

end Completing

/-! The whole stream. -/

def HasEntry (body : List UrpStreamEvent) (nodes : List Node) (i : Nat) : Prop :=
  ∃ node, nodes[i]? = some node ∧ node.call.isSome = true ∧ legacyCall body i node = false

/-- What the client reads: each frame with content belongs to one node and the frames of a node add up to
its text, the calls put together by index are those of the output, and the finish reason comes last. -/
structure DeliversOnce (body : List UrpStreamEvent) (nodes : List Node) (frames : List ChatFrame) : Prop where
  content : ∃ labelled : List (Nat × ChatFrame), labelled.map (·.2) = frames ∧
    (∀ i node content, nodes[i]? = some node → node.prose = some content →
      String.join ((labelled.filter (·.1 = i)).map (·.2.content)) = content) ∧
    ∀ e ∈ labelled, e.2.content ≠ "" → ∃ node, nodes[e.1]? = some node ∧ node.isProse = true
  calls : ∃ indexOf : Nat → Nat,
    (∀ i j, HasEntry body nodes i → HasEntry body nodes j → indexOf i = indexOf j → i = j) ∧
    (∀ c ∈ frames.flatMap ChatFrame.calls, ∃ i, HasEntry body nodes i ∧ indexOf i = c.index) ∧
    ∀ i node call, nodes[i]? = some node → node.call = some call → legacyCall body i node = false →
      (∃ c ∈ frames.flatMap ChatFrame.calls, c.index = indexOf i) ∧
        assembledCall (indexOf i) (frames.flatMap ChatFrame.calls) = call
  ending : ∃ before finish after, frames = before ++ finish :: after ++ [.done] ∧
    (∀ f ∈ before, f.finish = none ∧ f.isDone = false) ∧ finish.finish ≠ none ∧
    (finish.content = "" ∧ finish.calls = []) ∧ after.length ≤ 1 ∧
    ∀ f ∈ after, f.finish = none ∧ f.isDone = false ∧ f.content = "" ∧ f.calls = []

theorem completeResponse_sends (ctx : ChatEncoderContext) (reason : Option FinishReason) (output : List Node) (extra : JsonMap)
    (s s' : ChatEncoder) (hs' : s' = emitMissingNodes ctx output
      { s with pendingEnvelopeExtra := extend s.pendingEnvelopeExtra (nativeChatDeltaExtra extra) }) :
    ∃ finishReason choiceExtra, (completeResponse ctx reason output extra s).sends =
      (emitChatTerminalSequence ctx finishReason choiceExtra (if s'.pendingEnvelopeExtra = [] then s'
        else sendDelta ctx (chatDeltaWithExtras [] [] s').1 (chatDeltaWithExtras [] [] s').2)).sends := by
  subst hs'
  exact ⟨_, _, rfl⟩

theorem Completing.ofStream (hcanon : CanonicalStream body nodes) (reason : Option FinishReason) (extra : JsonMap)
    (hextra : ∀ e ∈ body ++ [.responseDone reason nodes extra], e.UntypedExtras) :
    ∃ s finishReason choiceExtra, Tells ctx limit s.sends ((clientTrace body nodes).map (·.2)) ∧
      (encodeUrpStreamAsChat ctx (body ++ [.responseDone reason nodes extra])).sends =
        (emitChatTerminalSequence ctx finishReason choiceExtra s).sends := by
  have h := @Streaming.run ctx limit body [] body nodes {} .initial hcanon rfl fun e he => hextra e (mem_append_left _ he)
  obtain ⟨hdone, hnodes⟩ : Untyped (nativeChatDeltaExtra extra) ∧ ∀ node ∈ nodes, node.UntypedExtras :=
    hextra _ (mem_append_right _ (mem_singleton_self _))
  generalize hs : body.foldl (encodeChatEvent ctx) {} = s at h
  have hstart : Completing ctx limit body nodes []
      { s with pendingEnvelopeExtra := extend s.pendingEnvelopeExtra (nativeChatDeltaExtra extra) } :=
    ⟨h.untyped.extend hdone, by simpa using h.tells, by simpa using h.toolIdx, h.emitted⟩
  have hend := hstart.run hcanon (nil_append _).symm fun e he => hnodes e.1 (fst_mem_of_mem_zipIdx he)
  generalize hs' : foldl _ _ _ = s' at hend
  obtain ⟨finishReason, choiceExtra, hsends⟩ := completeResponse_sends ctx reason nodes extra s s' hs'.symm
  have hflush : Emits ctx limit s' (if s'.pendingEnvelopeExtra = [] then s'
      else sendDelta ctx (chatDeltaWithExtras [] [] s').1 (chatDeltaWithExtras [] [] s').2) [] := by
    split
    · exact .refl hend.untyped
    · exact Emits.sendAside hend.untyped .nil rfl rfl
  generalize (if s'.pendingEnvelopeExtra = [] then s' else _) = s'' at hflush hsends
  obtain ⟨sent, hsent, htells⟩ := hflush.sends
  refine ⟨s'', finishReason, choiceExtra, ?_, ?_⟩
  · rw [hsent]
    simpa [clientTrace] using hend.tells.append htells
  · rw [encodeUrpStreamAsChat, foldl_append, hs, foldl_cons, encodeChatEvent,
      if_neg (by simp [h.running])]
    exact hsends

theorem terminal_frames (s : ChatEncoder) (finishReason : String) (choiceExtra : Option JsonMap) :
    ∃ finish after, (emitChatTerminalSequence ctx finishReason choiceExtra s).sends.flatMap (frames ctx limit) =
        s.sends.flatMap (frames ctx limit) ++ finish :: after ++ [.done] ∧ finish.finish ≠ none ∧
      (finish.content = "" ∧ finish.calls = []) ∧ after.length ≤ 1 ∧
      ∀ f ∈ after, f.finish = none ∧ f.isDone = false ∧ f.content = "" ∧ f.calls = [] := by
  have hdelta : member (choiceWithExtra (chatChoiceOf [] (.string finishReason)) (choiceExtra.getD [])) "delta" =
      some (.object []) := member_merge (.inl rfl)
  have hfinish : member (choiceWithExtra (chatChoiceOf [] (.string finishReason)) (choiceExtra.getD []))
      "finish_reason" = some (.string finishReason) := member_merge (.inl rfl)
  refine ⟨.data (chatCompletionChunk ctx s.chatId s.created
    (choiceWithExtra (chatChoiceOf [] (.string finishReason)) (choiceExtra.getD []))), ctx.usage.toList.map fun usage =>
    .data (.object [("choices", .array []), ("created", .int s.created), ("id", .string s.chatId),
      ("model", .string ctx.logicalModel), ("object", .string "chat.completion.chunk"), ("usage", usage)]), ?_, ?_,
    chunk_reading hdelta, ?_, ?_⟩
  · unfold emitChatTerminalSequence
    cases ctx.usage <;> simp [ChatEncoder.send, frames]
  · rw [finish, chatChoice_chunk, bind_some, hfinish]
    exact some_ne_none _
  · cases ctx.usage <;> simp
  · intro f hf
    obtain ⟨usage, -, rfl⟩ := mem_map.mp hf
    exact ⟨rfl, rfl, rfl, rfl⟩

/-- Every node of a canonical stream reaches the client once and whole, for every frame limit with room for
the frames without their text. -/
theorem encodeUrpStreamAsChat_deliversOnce {body : List UrpStreamEvent} (hcanon : CanonicalStream body nodes)
    (reason : Option FinishReason) (extra : JsonMap)
    (hextra : ∀ e ∈ body ++ [.responseDone reason nodes extra], e.UntypedExtras)
    (hfits : ∀ send ∈ (encodeUrpStreamAsChat ctx (body ++ [.responseDone reason nodes extra])).sends, send.Fits ctx limit) :
    DeliversOnce body nodes (chatFrames ctx limit (body ++ [.responseDone reason nodes extra])) := by
  obtain ⟨s, finishReason, choiceExtra, htells, hsends⟩ := @Completing.ofStream ctx limit body nodes hcanon reason extra hextra
  obtain ⟨finish, after, hframes, hfinish, hblank, hafter, husage⟩ := @terminal_frames ctx limit s finishReason choiceExtra
  rw [← hsends] at hframes
  have hroom : ∀ send ∈ s.sends, send.Fits ctx limit := by
    intro send hsend
    apply hfits
    rw [hsends]
    unfold emitChatTerminalSequence
    cases ctx.usage <;> simp [ChatEncoder.send, hsend]
  obtain ⟨tail, htail⟩ : ∃ tail, tail = finish :: after ++ [ChatFrame.done] := ⟨_, rfl⟩
  have hquiet : ∀ f ∈ tail, f.content = "" ∧ f.calls = [] := by
    intro f hf
    rw [htail] at hf
    rcases mem_append.mp hf with hf | hf
    · rcases mem_cons.mp hf with rfl | hf
      · exact hblank
      · exact (husage f hf).2.2
    · rw [mem_singleton.mp hf]
      exact ⟨rfl, rfl⟩
  have hall : chatFrames ctx limit (body ++ [.responseDone reason nodes extra]) =
      s.sends.flatMap (ChatSend.frames ctx limit) ++ tail := by
    rw [chatFrames, hframes, htail, append_assoc]
  have hcalls : (chatFrames ctx limit (body ++ [.responseDone reason nodes extra])).flatMap ChatFrame.calls =
      (s.sends.flatMap (ChatSend.frames ctx limit)).flatMap ChatFrame.calls := by
    rw [hall, flatMap_append, flatMap_eq_nil_iff.mpr fun f hf => (hquiet f hf).2, append_nil]
  constructor
  · obtain ⟨labelled, hmap, hcontent, hlabels⟩ := htells.labelled hroom
    refine ⟨labelled ++ tail.map (0, ·), ?_, ?_, ?_⟩
    · rw [map_append, hmap, hall]
      simp
    · intro i node content hnode hprose
      have hrest : ((tail.map ((0 : Nat), ·)).filter (·.1 = i)).map (·.2.content) =
          ((tail.map ((0 : Nat), ·)).filter (·.1 = i)).map fun _ => "" := by
        apply map_congr_left
        intro e he
        obtain ⟨f, hf, rfl⟩ := mem_map.mp (mem_of_mem_filter he)
        exact (hquiet f hf).1
      rw [filter_append, map_append, String.join_append, hcontent, hrest, join_map_empty, String.append_empty]
      exact hcanon.prose_told hnode hprose
    · intro e he hne
      rcases mem_append.mp he with he | he
      · obtain ⟨x, hx, hlabel, hprose⟩ := hlabels e he hne
        obtain ⟨node, hnode, hentry⟩ := hcanon.entry_owner (show (x.1, x.2) ∈ _ from hx)
        exact ⟨node, hlabel ▸ hnode, hentry.prose hprose⟩
      · obtain ⟨f, hf, rfl⟩ := mem_map.mp he
        exact absurd (hquiet f hf).1 hne
  · have hentry : ∀ i, HasEntry body nodes i → i ∈ callOrder body nodes := by
      rintro i ⟨node, hnode, hsome, hleg⟩
      obtain ⟨call, hcall⟩ := isSome_iff_exists.mp hsome
      exact (hcanon.call_told hnode hcall (by rw [legacyAt, hnode]; exact hleg)).1
    refine ⟨callIndex body nodes, ?_, ?_, ?_⟩
    · intro i j hi _ heq
      exact (idxOf_inj (hentry i hi)).mp heq
    · intro c hc
      rw [hcalls] at hc
      obtain ⟨c', hc', heq⟩ := (htells.assembled hroom c.index).2.mp ⟨c, hc, rfl⟩
      obtain ⟨x, hx, hxc⟩ := mem_filterMap.mp hc'
      obtain ⟨⟨i, x⟩, hentry, rfl⟩ := mem_map.mp hx
      obtain ⟨node, hnode, howner⟩ := hcanon.entry_owner hentry
      obtain ⟨hindex, hsome, hleg⟩ := howner.call c' hxc
      rw [legacyAt, hnode] at hleg
      exact ⟨i, ⟨node, hnode, hsome, hleg⟩, hindex.symm.trans heq⟩
    · intro i node call hnode hcall hleg
      obtain ⟨horder, hne, htold⟩ := hcanon.call_told hnode hcall (by rw [legacyAt, hnode]; exact hleg)
      obtain ⟨hasm, hmem⟩ := htells.assembled hroom (callIndex body nodes i)
      rw [hcalls]
      constructor
      · obtain ⟨c, hc⟩ := exists_mem_of_ne_nil _ hne
        obtain ⟨x, hx, hxc⟩ := mem_filterMap.mp hc
        have hentry := CanonicalStream.mem_shownOf.mp hx
        obtain ⟨node, -, howner⟩ := hcanon.entry_owner hentry
        exact hmem.mpr ⟨c, mem_filterMap.mpr ⟨x, mem_map_of_mem hentry, hxc⟩, (howner.call c hxc).1⟩
      · rw [hasm, ← htold, assembledCall, assembledCall, hcanon.calls_of_index i]
  · exact ⟨_, finish, after, hframes, htells.pending hroom, hfinish, hblank, hafter, husage⟩

def sampleEncoder : ChatEncoderContext := ⟨"m", "chatcmpl_1", 0, none, fun _ _ _ _ => .null⟩

def greeting : Node := .text none .assistant "Hello" none []

def lookup : Node := .toolCall none .function "call_1" "get" "[1]" []

def lookupStream : List UrpStreamEvent :=
  [.nodeStart 1 (.toolCall none .function "call_1" "get") [], .nodeStart 0 (.text none .assistant none) [],
    .nodeDelta 0 (.text "He") [], .nodeDelta 1 (.toolCallArguments "[1") [], .nodeDelta 0 (.text "llo") [],
    .nodeDone 0 greeting [], .nodeDelta 1 (.toolCallArguments "]") [], .nodeDone 1 lookup []]

theorem lookupStream_canonical : CanonicalStream lookupStream [greeting, lookup, greeting] where
  lifecycle i := by
    match i with
    | 0 =>
      refine .inr ⟨greeting, .text none .assistant none, [.text "He", .text "llo"], rfl, rfl, ⟨rfl, ?_⟩, ?_, ?_⟩
      · intro id toolType callId name h
        cases h
      · simp [NodeDelta.OfKind, greeting]
      · exact (by decide +kernel : joined textPart [.text "He", .text "llo"] = "Hello")
    | 1 =>
      refine .inr ⟨lookup, .toolCall none .function "call_1" "get", [.toolCallArguments "[1", .toolCallArguments "]"], rfl, rfl,
        ⟨rfl, ?_⟩, ?_, ?_⟩
      · intro id toolType callId name h
        cases h
        exact ⟨_, rfl⟩
      · simp [NodeDelta.OfKind, lookup]
      · exact (by decide +kernel :
          joined argumentsPart [.toolCallArguments "[1", .toolCallArguments "]"] = "[1]")
    | n + 2 => exact .inl rfl
  running := by decide

-- The limit parts the arguments `[1` in two frames.
theorem lookupStream_delivered : CanonicalStream lookupStream [greeting, lookup, greeting] ∧
    DeliversOnce lookupStream [greeting, lookup, greeting]
      (chatFrames sampleEncoder (some 183) (lookupStream ++ [.responseDone none [greeting, lookup, greeting] []])) := by
  refine ⟨lookupStream_canonical, encodeUrpStreamAsChat_deliversOnce lookupStream_canonical none [] ?_ (by decide +kernel)⟩
  intro e he
  simp only [lookupStream, cons_append, nil_append, mem_cons, not_mem_nil, or_false] at he
  rcases he with rfl | rfl | rfl | rfl | rfl | rfl | rfl | rfl | rfl
  all_goals first | exact Untyped.nil | exact trivial | skip
  exact ⟨.nil, by simp [greeting, lookup, Node.UntypedExtras]⟩

def legacyLookup : Node := .toolCall none .function "call_1" "get" "[1]" [(chatLegacyFunctionCallExtraKey, .bool true)]

theorem legacyLookup_absent : CanonicalStream [] [legacyLookup] ∧ legacyLookup.call = some ("call_1", "get", "[1]") ∧
    (chatFrames sampleEncoder none [.responseDone none [legacyLookup] []]).flatMap ChatFrame.calls = [] := by
  refine ⟨⟨fun _ => .inl rfl, by simp⟩, rfl, ?_⟩
  decide +kernel

end Monoize.Urp
