import Monoize.ChatStreamDecoder

/-! Every node of the Chat decoder is in one of its stores, under the index it was started with, and
the store holds what the fragments sent for it add up to. -/

namespace Monoize.Urp

open List Option Function ChatStream NodeDelta

variable {r : NodeRecord} {s' : ChatStream} {i : Nat}

structure ChatStream.Kept (ctx : ChatContext) (s : ChatStream) : Prop where
  keeps : Keeps s.events (s.unsortedNodes ctx)
  next : s.nextNodeIndex = (s.unsortedNodes ctx).length
  text : s.textNodeIndex = none → s.outputText = ""
  reasoning : s.reasoningNodeIndex = none → s.reasoningText = "" ∧ s.reasoningSummary = "" ∧ s.reasoningSig = ""
  calls : ∀ callId, callId ∈ s.callOrder ↔ (s.calls callId).isSome
  placed : ∀ callId, callId ∈ s.callOrder ↔ (s.toolNodeIndexByCallId callId).isSome
  nodup : s.callOrder.Nodup
  toolsOrdered : ((s.toolNodes ctx).map (·.1)).Pairwise (· < ·)
  detailsOrdered : (s.reasoningDetailNodes.map (·.1)).Pairwise (· < ·)
  details : ∀ e ∈ s.reasoningDetailNodes, e.2.isReasoning
  items : ∀ e ∈ s.providerItems, e.2.isProviderItem

variable {ctx : ChatContext} {s : ChatStream}

theorem ChatStream.init_kept : ({} : ChatStream).Kept ctx where
  keeps := Keeps.nil
  next := rfl
  text _ := rfl
  reasoning _ := ⟨rfl, rfl, rfl⟩
  calls _ := by simp
  placed _ := by simp
  nodup := nodup_nil
  toolsOrdered := List.Pairwise.nil
  detailsOrdered := List.Pairwise.nil
  details := by simp
  items := by simp

theorem NodeRecord.Holds.textNode (h : r.Holds (s.textNode ctx))
    (heq : s'.outputText = s.outputText) : r.Holds (s'.textNode ctx) := by
  obtain ⟨hopen, hann, hacc⟩ := h
  refine ⟨hopen, ?_, ?_⟩
  · cases hr : r.header <;> simp_all [NodeHeader.Announces, ChatStream.textNode]
  · simpa [Node.Accumulates, ChatStream.textNode, heq] using hacc

theorem NodeRecord.Holds.reasoningNode (h : r.Holds (s.reasoningNode ctx))
    (htext : s'.reasoningText = s.reasoningText) (hsummary : s'.reasoningSummary = s.reasoningSummary)
    (hsig : s'.reasoningSig = s.reasoningSig) : r.Holds (s'.reasoningNode ctx) := by
  obtain ⟨hopen, hann, hacc⟩ := h
  refine ⟨hopen, ?_, ?_⟩
  · cases hr : r.header <;> simp_all [NodeHeader.Announces, ChatStream.reasoningNode]
  · simpa [Node.Accumulates, ChatStream.reasoningNode, htext, hsummary, hsig] using hacc

theorem reasoning_accumulates_iff (id source : Option String) (text summary sig : String) (extra : JsonMap)
    (ds : List NodeDelta) :
    (Node.reasoning id (if text = "" then none else some text) (if sig = "" then none else some (.string sig))
      (if summary = "" then none else some summary) source extra).Accumulates ds ↔
      joined contentPart ds = text ∧ joined summaryPart ds = summary ∧
        joined encryptedPart ds = sig := by
  have hget : ∀ t : String, (if t = "" then none else some t).getD "" = t := by
    intro t
    split <;> simp_all
  have henc : (((if sig = "" then none else some (JsonValue.string sig)).map JsonValue.plainText).getD "") = sig := by
    split <;> simp_all
  simp only [Node.Accumulates, hget, henc]

@[simp] theorem ChatStream.ensureResponseStarted_slot (slot : ChatSlot) :
    (s.ensureResponseStarted ctx).slot slot = s.slot slot := by
  unfold ensureResponseStarted ensureResponseStartedWithExtra
  split <;> cases slot <;> rfl

def ChatStream.nodesBeforeText (ctx : ChatContext) (s : ChatStream) : List (Nat × Node) :=
  s.reasoningNodeIndex.toList.map (·, s.reasoningNode ctx) ++ s.reasoningDetailNodes

def ChatStream.nodesAfterText (ctx : ChatContext) (s : ChatStream) : List (Nat × Node) :=
  s.toolNodes ctx ++ s.providerItems

def ChatStream.nodesAfterReasoning (ctx : ChatContext) (s : ChatStream) : List (Nat × Node) :=
  s.reasoningDetailNodes ++ s.textNodeIndex.toList.map (·, s.textNode ctx) ++ s.toolNodes ctx ++ s.providerItems

theorem ChatStream.unsortedNodes_of_text_none (h : s.textNodeIndex = none) :
    s.unsortedNodes ctx = s.nodesBeforeText ctx ++ s.nodesAfterText ctx := by
  simp [unsortedNodes, nodesBeforeText, nodesAfterText, h]

theorem ChatStream.unsortedNodes_of_text_some (h : s.textNodeIndex = some i) :
    s.unsortedNodes ctx = s.nodesBeforeText ctx ++ (i, s.textNode ctx) :: s.nodesAfterText ctx := by
  simp [unsortedNodes, nodesBeforeText, nodesAfterText, h]

theorem ChatStream.unsortedNodes_of_reasoning_none (h : s.reasoningNodeIndex = none) :
    s.unsortedNodes ctx = s.nodesAfterReasoning ctx := by
  simp [unsortedNodes, nodesAfterReasoning, h]

theorem ChatStream.unsortedNodes_of_reasoning_some (h : s.reasoningNodeIndex = some i) :
    s.unsortedNodes ctx = (i, s.reasoningNode ctx) :: s.nodesAfterReasoning ctx := by
  simp [unsortedNodes, nodesAfterReasoning, h]

theorem pairwise_lt_concat {l : List (Nat × Node)} (node : Node) (h : (l.map (·.1)).Pairwise (· < ·)) {n : Nat}
    (hn : ∀ e ∈ l, e.1 < n) : ((l ++ [(n, node)]).map (·.1)).Pairwise (· < ·) := by
  rw [map_append, pairwise_append]
  refine ⟨h, by simp, ?_⟩
  intro a ha b hb
  obtain ⟨e, he, rfl⟩ := mem_map.mp ha
  have hb : b = n := by simpa using hb
  exact hb ▸ hn e he

theorem ensureCall_ensureResponseStarted (callId : String) (toolType : ToolCallType) (name : String) (legacy : Bool) :
    (ensureCall callId toolType name legacy s).ensureResponseStarted ctx =
      ensureCall callId toolType name legacy (s.ensureResponseStarted ctx) := by
  unfold ensureCall ensureResponseStarted ensureResponseStartedWithExtra
  by_cases hcall : (s.calls callId).isSome <;> by_cases hstarted : s.responseStarted <;>
    simp [hcall, hstarted, sendEvent]

theorem ChatStream.Kept.foldl {α : Type} {f : ChatStream → α → ChatStream}
    (hf : ∀ t : ChatStream, t.Kept ctx → ∀ a, (f t a).Kept ctx) (l : List α) (h : s.Kept ctx) : (l.foldl f s).Kept ctx := by
  induction l generalizing s with
  | nil => exact h
  | cons a l ih => exact ih (hf s h a)

theorem ChatStream.foldl_sendEvent (nodes : List (Nat × Node)) :
    nodes.foldl (fun s e => s.sendEvent (.nodeDone e.1 e.2 [])) s =
      { s with events := s.events ++ nodes.map fun e => .nodeDone e.1 e.2 [] } := by
  induction nodes generalizing s with
  | nil => simp
  | cons e nodes ih =>
    rw [foldl_cons, ih]
    simp [sendEvent]

theorem ChatStream.sortedNodes_pairwise : (s.sortedNodes ctx).Pairwise fun a b => a.1 ≤ b.1 :=
  have : Std.Total (fun a b : Nat × Node => a.1 ≤ b.1) := ⟨fun a b => Nat.le_total a.1 b.1⟩
  have : IsTrans (Nat × Node) (fun a b => a.1 ≤ b.1) := ⟨fun _ _ _ => Nat.le_trans⟩
  pairwise_insertionSort _ _

theorem ChatStream.ensureResponseStarted_sortedNodes : (s.ensureResponseStarted ctx).sortedNodes ctx = s.sortedNodes ctx := by
  unfold ensureResponseStarted ensureResponseStartedWithExtra
  split <;> rfl

variable {phase source content summary : Option String} {text callId name argsDelta : String} {d : NodeDelta}
  {extra block : JsonMap}
  {encrypted : Option JsonValue} {detail delta data raw : JsonValue} {toolType : ToolCallType} {legacy : Bool} {pos : Nat}

variable (h : s.Kept ctx)

include h

theorem ChatStream.Kept.sideFields {indices : Nat → Option String} {started seen : Bool} {reason : Option FinishReason}
    {terminal : JsonMap} :
    ({ s with
      assistantMessagePhase := phase
      reasoningSource := source
      callIdByIndex := indices
      responseStarted := started
      finishReason := reason
      protocolTerminalSeen := seen
      terminalExtraBody := terminal
      deltaExtra := extra } : ChatStream).Kept ctx where
  keeps := by
    refine h.keeps.congr ?_
    have hrefl : ∀ l : List (Nat × Node),
        List.Forall₂ (fun a b => a.1 = b.1 ∧ ∀ r : NodeRecord, r.Holds a.2 → r.Holds b.2) l l :=
      fun l => forall₂_same.mpr fun _ _ => ⟨rfl, fun _ hr => hr⟩
    refine rel_append (rel_append (rel_append (rel_append ?_ (hrefl _)) ?_) (hrefl _)) (hrefl _)
    · cases s.reasoningNodeIndex with
      | none => exact .nil
      | some i => exact .cons ⟨rfl, fun r hr => hr.reasoningNode rfl rfl rfl⟩ .nil
    · cases s.textNodeIndex with
      | none => exact .nil
      | some i => exact .cons ⟨rfl, fun r hr => hr.textNode rfl⟩ .nil
  next := by
    refine h.next.trans ?_
    simp only [unsortedNodes, length_append, length_map]
    rfl
  text := h.text
  reasoning := h.reasoning
  calls := h.calls
  placed := h.placed
  nodup := h.nodup
  toolsOrdered := h.toolsOrdered
  detailsOrdered := h.detailsOrdered
  details := h.details
  items := h.items

theorem ChatStream.Kept.clearExtra : ({ s with deltaExtra := [] } : ChatStream).Kept ctx :=
  h.sideFields

theorem ChatStream.Kept.sendEvent {e : UrpStreamEvent} (hmark : ∀ i, e.mark i = none)
    (hstart : e.startIndex = none) (hout : e.output = none) : (s.sendEvent e).Kept ctx :=
  { h with keeps := h.keeps.skip hmark hstart hout }

theorem ChatStream.Kept.ensureResponseStartedWithExtra : (s.ensureResponseStartedWithExtra ctx extra).Kept ctx := by
  unfold ChatStream.ensureResponseStartedWithExtra
  split
  · exact h
  · have hsent := h.sendEvent (e := .responseStart ctx.responseId ctx.model extra) (fun _ => rfl) rfl rfl
    exact hsent.sideFields

theorem ChatStream.Kept.ensureResponseStarted : (s.ensureResponseStarted ctx).Kept ctx :=
  h.ensureResponseStartedWithExtra

/-! The list of nodes around each of its parts. -/

theorem ChatStream.Kept.startText (hslot : s.textNodeIndex = none) :
    ((s.setSlot s.nextNodeIndex .text).startNode (.text none .assistant phase) extra).Kept ctx := by
  have hempty : s.outputText = "" := h.text hslot
  have hstart := h.keeps.start (.text none .assistant phase) (s.textNode ctx) rfl
    (by simp [textNode, Node.Accumulates, hempty]) extra
  have hnodes : (((s.setSlot s.nextNodeIndex .text).startNode (.text none .assistant phase) extra).unsortedNodes ctx).Perm
      ((s.nextNodeIndex, s.textNode ctx) :: s.unsortedNodes ctx) := by
    rw [unsortedNodes_of_text_none hslot, unsortedNodes_of_text_some (i := s.nextNodeIndex) rfl]
    exact perm_middle
  rw [← h.next] at hstart
  exact
    { h with
      keeps := hstart.perm hnodes
      next := by rw [hnodes.length_eq, length_cons, ← h.next]; rfl
      text := fun hnone => absurd hnone (some_ne_none s.nextNodeIndex) }

theorem ChatStream.Kept.startReasoning (hslot : s.reasoningNodeIndex = none) :
    ((s.setSlot s.nextNodeIndex .reasoning).startNode (.reasoning none) extra).Kept ctx := by
  obtain ⟨htext, hsummary, hsig⟩ := h.reasoning hslot
  have hstart := h.keeps.start (.reasoning none) (s.reasoningNode ctx) trivial
    (by simp [reasoningNode, Node.Accumulates, htext, hsummary, hsig]) extra
  have hnodes : ((s.setSlot s.nextNodeIndex .reasoning).startNode (.reasoning none) extra).unsortedNodes ctx =
      (s.nextNodeIndex, s.reasoningNode ctx) :: s.unsortedNodes ctx := by
    rw [unsortedNodes_of_reasoning_none hslot]
    rfl
  rw [← h.next] at hstart
  exact
    { h with
      keeps := hstart.perm (by rw [hnodes])
      next := by rw [hnodes, length_cons, ← h.next]; rfl
      reasoning := fun hnone => absurd hnone (some_ne_none s.nextNodeIndex) }

theorem ChatStream.Kept.ensureTextStarted : (ensureNodeStarted ctx .text (.text none .assistant phase) s).2.Kept ctx ∧
      (ensureNodeStarted ctx .text (.text none .assistant phase) s).2.textNodeIndex =
        some (ensureNodeStarted ctx .text (.text none .assistant phase) s).1 := by
  unfold ensureNodeStarted
  split
  · rename_i i hi
    exact ⟨h, hi⟩
  rename_i hnone
  have hnone : (s.ensureResponseStarted ctx).textNodeIndex = none :=
    (ensureResponseStarted_slot .text).trans hnone
  exact ⟨h.ensureResponseStarted.startText hnone, rfl⟩

theorem ChatStream.Kept.ensureReasoningStarted : (ensureNodeStarted ctx .reasoning (.reasoning none) s).2.Kept ctx ∧
      (ensureNodeStarted ctx .reasoning (.reasoning none) s).2.reasoningNodeIndex =
        some (ensureNodeStarted ctx .reasoning (.reasoning none) s).1 := by
  unfold ensureNodeStarted
  split
  · rename_i i hi
    exact ⟨h, hi⟩
  rename_i hnone
  have hnone : (s.ensureResponseStarted ctx).reasoningNodeIndex = none :=
    (ensureResponseStarted_slot .reasoning).trans hnone
  exact ⟨h.ensureResponseStarted.startReasoning hnone, rfl⟩

theorem ChatStream.Kept.textDelta (hi : s.textNodeIndex = some i) :
    (({ s with outputText := s.outputText ++ text } : ChatStream).sendNodeDelta i (.text text) extra).Kept ctx := by
  have hkeeps := h.keeps
  rw [unsortedNodes_of_text_some hi] at hkeeps
  have hdelta := hkeeps.delta _ (({ s with outputText := s.outputText ++ text } : ChatStream).textNode ctx) (.text text)
    (fun header hann => by cases header <;> exact hann)
    (fun ds hacc => by
      simp only [Node.Accumulates, textNode] at hacc ⊢
      simp [hacc, textPart]) extra
  have hnodes : ((({ s with outputText := s.outputText ++ text } : ChatStream).sendNodeDelta i (.text text) extra).unsortedNodes
      ctx) = s.nodesBeforeText ctx ++ (i, ({ s with outputText := s.outputText ++ text } : ChatStream).textNode ctx) ::
        s.nodesAfterText ctx := unsortedNodes_of_text_some hi
  exact
    { h with
      keeps := hdelta.perm (by rw [hnodes])
      next := by
        have hnext := h.next
        rw [unsortedNodes_of_text_some hi] at hnext
        exact hnext.trans (by rw [hnodes]; simp)
      text := fun hnone => absurd (hi.symm.trans hnone) (some_ne_none i) }

theorem ChatStream.Kept.processTextDelta : (processTextDelta ctx text s).Kept ctx := by
  unfold Urp.processTextDelta
  split
  · exact h
  · obtain ⟨hkept, hslot⟩ := h.ensureTextStarted
    exact (hkept.textDelta hslot).clearExtra

theorem ChatStream.Kept.reasoningDelta (hi : s.reasoningNodeIndex = some i) :
    (({ s with
      reasoningText := s.reasoningText ++ d.contentPart
      reasoningSummary := s.reasoningSummary ++ d.summaryPart
      reasoningSig := s.reasoningSig ++ d.encryptedPart } : ChatStream).sendNodeDelta i d extra).Kept ctx := by
  have hkeeps := h.keeps
  rw [unsortedNodes_of_reasoning_some hi] at hkeeps
  have hdelta := hkeeps.delta []
    (({ s with
      reasoningText := s.reasoningText ++ d.contentPart
      reasoningSummary := s.reasoningSummary ++ d.summaryPart
      reasoningSig := s.reasoningSig ++ d.encryptedPart } : ChatStream).reasoningNode ctx) d
    (fun header hann => by cases header <;> exact hann)
    (fun ds hacc => by
      simp only [reasoningNode, reasoning_accumulates_iff] at hacc ⊢
      simp [hacc]) extra
  have hnodes : ((({ s with
      reasoningText := s.reasoningText ++ d.contentPart
      reasoningSummary := s.reasoningSummary ++ d.summaryPart
      reasoningSig := s.reasoningSig ++ d.encryptedPart } : ChatStream).sendNodeDelta i d extra).unsortedNodes ctx) =
        (i, ({ s with
          reasoningText := s.reasoningText ++ d.contentPart
          reasoningSummary := s.reasoningSummary ++ d.summaryPart
          reasoningSig := s.reasoningSig ++ d.encryptedPart } : ChatStream).reasoningNode ctx) ::
          s.nodesAfterReasoning ctx := unsortedNodes_of_reasoning_some hi
  exact
    { h with
      keeps := hdelta.perm (by rw [hnodes]; rfl)
      next := by
        have hnext := h.next
        rw [unsortedNodes_of_reasoning_some hi] at hnext
        exact hnext.trans (by rw [hnodes]; simp)
      reasoning := fun hnone => absurd (hi.symm.trans hnone) (some_ne_none i) }

theorem ChatStream.Kept.processReasoningDelta {append : ChatStream → ChatStream} {delta : Option String → NodeDelta}
    (happend : ∀ t source, append t =
      { t with
        reasoningText := t.reasoningText ++ (delta source).contentPart
        reasoningSummary := t.reasoningSummary ++ (delta source).summaryPart
        reasoningSig := t.reasoningSig ++ (delta source).encryptedPart }) :
    (processReasoningDelta ctx source append delta s).Kept ctx := by
  unfold Urp.processReasoningDelta
  have hside : ({ s with
      reasoningSource := resolveReasoningSource s.reasoningSource source
      deltaExtra := [] } : ChatStream).Kept ctx := h.sideFields
  obtain ⟨hkept, hslot⟩ := hside.ensureReasoningStarted
  dsimp only
  rw [happend _ (resolveReasoningSource s.reasoningSource source)]
  exact hkept.reasoningDelta hslot

theorem ChatStream.Kept.processReasoningSummaryDelta : (processReasoningSummaryDelta ctx summary source s).Kept ctx := by
  unfold Urp.processReasoningSummaryDelta
  split
  · exact h
  · exact h.processReasoningDelta fun t _ => by
      simp [contentPart, summaryPart, encryptedPart]

theorem ChatStream.Kept.processReasoningTextDelta : (processReasoningTextDelta ctx content source s).Kept ctx := by
  unfold Urp.processReasoningTextDelta
  split
  · exact h
  · exact h.processReasoningDelta fun t _ => by
      simp [contentPart, summaryPart, encryptedPart]

theorem ChatStream.Kept.processReasoningEncryptedDelta : (processReasoningEncryptedDelta ctx encrypted source s).Kept ctx := by
  unfold Urp.processReasoningEncryptedDelta
  split
  · exact h
  · exact h.processReasoningDelta fun t _ => by
      simp [contentPart, summaryPart, encryptedPart]

theorem ChatStream.Kept.index_lt_next {e : Nat × Node} (he : e ∈ s.unsortedNodes ctx) :
    e.1 < s.nextNodeIndex := h.next ▸ h.keeps.index_lt he

theorem ChatStream.Kept.processReasoningDetailDelta : (processReasoningDetailDelta ctx detail s).Kept ctx := by
  unfold Urp.processReasoningDetailDelta
  split
  · rename_i id content encrypted summary source extra hnode
    have hkept := h.ensureResponseStarted
    generalize s.ensureResponseStarted ctx = t at hkept
    have hstart := hkept.keeps.start (.reasoning id) (.reasoning id none none none source extra) trivial
      ⟨rfl, rfl, rfl⟩ extra
    have hdelta := hstart.delta [] (.reasoning id content encrypted summary source extra)
      (.reasoning content encrypted summary source) (fun header hann => by cases header <;> exact hann)
      (fun ds hacc => by
        simp only [Node.Accumulates, getD_none, map_none] at hacc ⊢
        simp [hacc, contentPart, summaryPart, encryptedPart])
      (extra.extend (chatDeltaEventExtra t.deltaExtra))
    rw [← hkept.next, append_assoc] at hdelta
    have hnodes : ((t.reasoningNodeIndex.toList.map (·, t.reasoningNode ctx) ++
        (t.reasoningDetailNodes ++ [(t.nextNodeIndex, .reasoning id content encrypted summary source extra)]) ++
        t.textNodeIndex.toList.map (·, t.textNode ctx) ++ t.toolNodes ctx ++ t.providerItems) : List (Nat × Node)).Perm
        ((t.nextNodeIndex, .reasoning id content encrypted summary source extra) :: t.unsortedNodes ctx) := by
      simp only [unsortedNodes, append_assoc, cons_append, nil_append]
      rw [← append_assoc, ← append_assoc (t.reasoningNodeIndex.toList.map _)]
      exact perm_middle
    exact
      { hkept with
        keeps := by
          have hkeeps := hdelta.perm hnodes
          rw [← append_assoc] at hkeeps
          exact hkeeps
        next := by
          refine Eq.trans ?_ hnodes.length_eq.symm
          rw [length_cons, ← hkept.next]
          rfl
        detailsOrdered := by
          refine pairwise_lt_concat _ hkept.detailsOrdered fun e he => hkept.index_lt_next ?_
          simp [unsortedNodes, he]
        details := by
          intro e he
          rcases mem_append.mp he with he | he
          · exact hkept.details e he
          · rw [mem_singleton.mp he]
            rfl }
  · exact h

theorem ChatStream.Kept.processProviderItemBlock : (processProviderItemBlock ctx block s).Kept ctx := by
  unfold Urp.processProviderItemBlock
  have hkept := h.ensureResponseStarted
  generalize s.ensureResponseStarted ctx = t at hkept
  dsimp only
  generalize (block.strMember "id" <|> some (ctx.providerItemId t.nextNodeIndex)) = id
  generalize (block.strMember "type").getD "" = itemType
  have hstart := hkept.keeps.start (.providerItem id .chatCompletion .assistant itemType)
    (.providerItem id .chatCompletion .assistant itemType (.object block) []) ⟨rfl, rfl, rfl⟩ trivial
    (chatDeltaEventExtra t.deltaExtra)
  rw [← hkept.next] at hstart
  have hnodes : (t.unsortedNodes ctx ++
      [(t.nextNodeIndex, .providerItem id .chatCompletion .assistant itemType (.object block) [])] :
        List (Nat × Node)).Perm
      ((t.nextNodeIndex, .providerItem id .chatCompletion .assistant itemType (.object block) []) ::
        t.unsortedNodes ctx) := perm_append_singleton _ _
  have hlist : ∀ (extra : JsonMap) (items : List (Nat × Node)), ({ t with
      providerItems := t.providerItems ++ items, deltaExtra := extra } : ChatStream).unsortedNodes ctx =
        t.unsortedNodes ctx ++ items := fun _ _ => (append_assoc _ _ _).symm
  exact
    { hkept with
      keeps := (hstart.perm hnodes).perm (List.Perm.of_eq (hlist [] _))
      next := by
        refine Eq.trans ?_ (congrArg length (hlist [] _)).symm
        rw [hnodes.length_eq, length_cons, ← hkept.next]
        rfl
      items := by
        intro e he
        rcases mem_append.mp he with he | he
        · exact hkept.items e he
        · rw [mem_singleton.mp he]
          rfl }

/-! Tool calls. -/

theorem ChatStream.Kept.placeCall :
    (ensureToolNode callId toolType name legacy (ensureCall callId toolType name legacy s)).Kept ctx := by
  by_cases hcall : (s.calls callId).isSome
  · obtain ⟨i, hi⟩ := isSome_iff_exists.mp ((h.placed callId).mp ((h.calls callId).mpr hcall))
    have heq : ensureToolNode callId toolType name legacy (ensureCall callId toolType name legacy s) = s := by
      simp [ensureCall, ensureToolNode, hcall, hi]
    rw [heq]
    exact h
  · have hnew : callId ∉ s.callOrder := fun hmem => hcall ((h.calls callId).mp hmem)
    have hnone : s.toolNodeIndexByCallId callId = none := by
      by_contra hsome
      exact hnew ((h.placed callId).mpr (isSome_iff_ne_none.mpr hsome))
    set entry : ToolCallEntry := ⟨toolType, name, "", legacy⟩
    obtain ⟨extra, heq⟩ : ∃ extra, ensureToolNode callId toolType name legacy (ensureCall callId toolType name legacy s) =
        ({ s with
          callOrder := s.callOrder ++ [callId]
          calls := update s.calls callId (some entry)
          toolNodeIndexByCallId := update s.toolNodeIndexByCallId callId (some s.nextNodeIndex)
          deltaExtra := [] } : ChatStream).startNode (.toolCall none toolType callId name) extra := by
      simp only [ensureCall, hcall, if_false, ensureToolNode, hnone, Bool.false_eq_true]
      exact ⟨_, rfl⟩
    rw [heq]
    generalize ht : ({ s with
      callOrder := s.callOrder ++ [callId]
      calls := update s.calls callId (some entry)
      toolNodeIndexByCallId := update s.toolNodeIndexByCallId callId (some s.nextNodeIndex)
      deltaExtra := [] } : ChatStream) = t
    have htools : t.toolNodes ctx = s.toolNodes ctx ++ [(s.nextNodeIndex, toolCallNode ctx callId entry)] := by
      subst ht
      simp only [ChatStream.toolNodes, filterMap_append]
      congr 1
      · apply filterMap_congr
        intro c hc
        have hne : c ≠ callId := fun heq => hnew (heq ▸ hc)
        simp [ChatStream.toolNode?, hne]
      · simp [ChatStream.toolNode?]
    have hnodes : ((t.startNode (.toolCall none toolType callId name) extra).unsortedNodes ctx).Perm
        ((s.nextNodeIndex, toolCallNode ctx callId entry) :: s.unsortedNodes ctx) := by
      have hlist : (t.startNode (.toolCall none toolType callId name) extra).unsortedNodes ctx =
          s.nodesBeforeText ctx ++ s.textNodeIndex.toList.map (·, s.textNode ctx) ++ t.toolNodes ctx ++
            s.providerItems := by
        subst ht
        rfl
      rw [hlist, htools]
      simp only [append_assoc, cons_append]
      simp only [← append_assoc]
      exact perm_middle
    have hstart := h.keeps.start (.toolCall none toolType callId name) (toolCallNode ctx callId entry) rfl
      rfl extra
    rw [← h.next] at hstart
    subst ht
    exact
      { h with
        keeps := hstart.perm hnodes
        next := by rw [hnodes.length_eq, length_cons, ← h.next]; rfl
        calls := by
          intro c
          by_cases hc : c = callId <;> simp [hc, ChatStream.startNode, ChatStream.sendEvent, h.calls]
        placed := by
          intro c
          by_cases hc : c = callId <;> simp [hc, ChatStream.startNode, ChatStream.sendEvent, h.placed]
        nodup := by
          have hnd := h.nodup
          exact nodup_append.mpr ⟨hnd, nodup_singleton _, fun a ha b hb => by
            rw [mem_singleton] at hb
            subst hb
            rintro rfl
            exact hnew ha⟩
        toolsOrdered := by
          have hpair := pairwise_lt_concat (toolCallNode ctx callId entry) h.toolsOrdered
            (fun e he => h.index_lt_next (e := e) (by simp [ChatStream.unsortedNodes, he]))
          rw [← htools] at hpair
          exact hpair }

theorem ChatStream.Kept.extendCall : (extendCall callId toolType name argsDelta legacy s).Kept ctx := by
  unfold Urp.extendCall
  split
  · rename_i i entry hi hentry
    set entry' := entry.update toolType name argsDelta legacy with hentry'
    have hmem : callId ∈ s.callOrder := (h.calls callId).mpr (by simp [hentry])
    obtain ⟨before, after, horder⟩ := append_of_mem hmem
    have hnot : callId ∉ before ∧ callId ∉ after := by
      have hnd := h.nodup
      rw [horder, nodup_append] at hnd
      exact ⟨fun hb => hnd.2.2 callId hb callId (by simp) rfl, (nodup_cons.mp hnd.2.1).1⟩
    let t : ChatStream := { s with calls := update s.calls callId (some entry') }
    have hsame : ∀ l : List String, callId ∉ l → l.filterMap (t.toolNode? ctx) = l.filterMap (s.toolNode? ctx) := by
      intro l hl
      apply filterMap_congr
      intro c hc
      have hne : c ≠ callId := fun heq => hl (heq ▸ hc)
      simp [toolNode?, t, hne]
    have hold : s.toolNodes ctx = before.filterMap (s.toolNode? ctx) ++ (i, toolCallNode ctx callId entry) ::
        after.filterMap (s.toolNode? ctx) := by
      simp [toolNodes, horder, toolNode?, hi, hentry]
    have hnew : t.toolNodes ctx = before.filterMap (s.toolNode? ctx) ++ (i, toolCallNode ctx callId entry') ::
        after.filterMap (s.toolNode? ctx) := by
      have ht : t.callOrder = before ++ callId :: after := horder
      have hti : t.toolNode? ctx callId = some (i, toolCallNode ctx callId entry') := by
        simp [toolNode?, t, hi]
      rw [toolNodes, ht, filterMap_append, filterMap_cons, hti, hsame _ hnot.1, hsame _ hnot.2]
    have hlist : ∀ u : ChatStream, u.unsortedNodes ctx =
        (u.nodesBeforeText ctx ++ u.textNodeIndex.toList.map (·, u.textNode ctx)) ++ u.toolNodes ctx ++ u.providerItems :=
      fun _ => rfl
    have hkeeps := h.keeps
    rw [hlist, hold] at hkeeps
    simp only [append_assoc, cons_append] at hkeeps
    simp only [← append_assoc] at hkeeps
    have hlength : (t.unsortedNodes ctx).length = (s.unsortedNodes ctx).length := by
      rw [hlist, hlist, hnew, hold]
      simp only [length_append, length_cons]
      rfl
    have hrest : ∀ evs, Keeps evs (t.unsortedNodes ctx) → ({ t with events := evs } : ChatStream).Kept ctx := fun evs hk =>
      { h with
        keeps := hk
        next := h.next.trans hlength.symm
        calls := by
          intro c
          by_cases hc : c = callId
          · subst hc
            simpa [t] using hmem
          · simpa [t, hc] using h.calls c
        toolsOrdered := by
          have hpair := h.toolsOrdered
          rw [hold] at hpair
          have hgoal : ((t.toolNodes ctx).map (·.1)).Pairwise (· < ·) := by
            rw [hnew]
            simpa using hpair
          exact hgoal }
    dsimp only
    split
    · rename_i hempty
      refine hrest s.events ?_
      rw [hlist, hnew]
      simp only [append_assoc, cons_append]
      simp only [← append_assoc]
      refine hkeeps.congr (rel_append (forall₂_same.mpr fun _ _ => ⟨rfl, fun _ hr => hr⟩)
        (.cons ⟨rfl, ?_⟩ (forall₂_same.mpr fun _ _ => ⟨rfl, fun _ hr => hr⟩)))
      rintro r ⟨hopen, hann, hacc⟩
      refine ⟨hopen, by cases hh : r.header <;> rw [hh] at hann <;> exact hann, ?_⟩
      simpa [Node.Accumulates, toolCallNode, hentry', ToolCallEntry.update, hempty] using hacc
    · have hdelta := hkeeps.delta _ (toolCallNode ctx callId entry') (.toolCallArguments argsDelta)
        (fun header hann => by cases header <;> exact hann)
        (fun ds hacc => by
          simp only [Node.Accumulates, toolCallNode] at hacc ⊢
          simp [hacc, argumentsPart, hentry', ToolCallEntry.update]) (chatDeltaEventExtra s.deltaExtra)
      have hkept := hrest _ (by
        rw [hlist, hnew]
        simp only [append_assoc, cons_append]
        simp only [← append_assoc]
        exact hdelta)
      exact hkept.clearExtra
  · exact h

theorem ChatStream.Kept.processToolCallDelta : (processToolCallDelta ctx raw pos legacy s).Kept ctx := by
  unfold Urp.processToolCallDelta
  split
  · exact h
  rename_i tcObj _
  dsimp only
  split
  · exact h
  have hnoted : (noteCallIndex (toolCallIndex tcObj) (s.toolCallIdOf tcObj pos) s).Kept ctx := by
    unfold noteCallIndex
    split
    · exact h.sideFields
    · exact h
  rw [ensureCall_ensureResponseStarted]
  exact (hnoted.ensureResponseStarted.placeCall).extendCall

/-! A whole delta, with or without content blocks. -/

theorem ChatStream.Kept.processContentBlock {block : JsonValue} : (processContentBlock ctx block pos s).Kept ctx := by
  unfold Urp.processContentBlock
  split
  · exact h.processTextDelta
  · split
    · exact ((h.processReasoningSummaryDelta).processReasoningTextDelta).processReasoningEncryptedDelta
    rename_i blockObj _ _
    dsimp only
    cases (if isTextBlock blockObj = true then JsonMap.strMember blockObj "text" else none) with
    | none =>
      split
      · exact h.processToolCallDelta
      · exact (h.processToolCallDelta).processProviderItemBlock
    | some text =>
      split
      · exact (h.processTextDelta).processToolCallDelta
      · exact ((h.processTextDelta).processToolCallDelta).processProviderItemBlock
  · exact h

theorem ChatStream.Kept.processDeltaContent : (processDeltaContent ctx delta s).Kept ctx := by
  unfold Urp.processDeltaContent
  split
  · exact h.processTextDelta
  · exact ChatStream.Kept.foldl (fun t ht block => ht.processContentBlock) _ h
  · exact h

theorem ChatStream.Kept.processDeltaReasoning : (processDeltaReasoning ctx delta s).Kept ctx := by
  unfold Urp.processDeltaReasoning
  split
  · exact ChatStream.Kept.foldl (fun t ht detail => ht.processReasoningDetailDelta) _ h
  · apply ChatStream.Kept.foldl fun t ht chunk => ht.processReasoningEncryptedDelta
    apply ChatStream.Kept.foldl fun t ht chunk => ht.processReasoningTextDelta
    exact .foldl (fun t ht chunk => ht.processReasoningSummaryDelta) _ h

theorem ChatStream.Kept.processDeltaToolCalls : (processDeltaToolCalls ctx delta s).Kept ctx := by
  unfold Urp.processDeltaToolCalls
  dsimp only
  split
  · exact (ChatStream.Kept.foldl (fun t ht call => ht.processToolCallDelta) _ h).processToolCallDelta
  · exact .foldl (fun t ht call => ht.processToolCallDelta) _ h

theorem ChatStream.Kept.startOnAssistantRole : (startOnAssistantRole ctx delta s).Kept ctx := by
  unfold Urp.startOnAssistantRole
  split
  · split
    · exact h.clearExtra.ensureResponseStartedWithExtra
    · exact h.ensureResponseStarted
  · exact h

theorem ChatStream.Kept.processDelta : (processDelta ctx delta s).Kept ctx :=
  (((h.startOnAssistantRole).processDeltaContent).processDeltaReasoning).processDeltaToolCalls

theorem ChatStream.Kept.noteDeltaExtra : (noteDeltaExtra data s).Kept ctx :=
  h.sideFields

theorem ChatStream.Kept.recordFinishReason {reason : String} : (recordFinishReason data reason s).Kept ctx :=
  h.sideFields

/-! The end of the stream. -/

theorem ChatStream.Kept.sortedNodes_keeps : Keeps s.events (s.sortedNodes ctx) :=
  h.keeps.perm (perm_insertionSort _ _)

theorem ChatStream.Kept.finish (hseen : s.protocolTerminalSeen = true) :
    CompletedStream (finishChatStream ctx s).events ((s.sortedNodes ctx).map (·.2)) := by
  unfold finishChatStream
  rw [if_pos hseen]
  dsimp only
  set t := if s.responseStarted = true ∨ s.outputText ≠ "" ∨ s.reasoningText ≠ "" ∨ s.reasoningSummary ≠ "" ∨
    s.reasoningDetailNodes ≠ [] ∨ s.callOrder ≠ [] then s.ensureResponseStarted ctx else s with ht
  have hkept : t.Kept ctx := by
    rw [ht]
    split
    · exact h.ensureResponseStarted
    · exact h
  have hnodes : t.sortedNodes ctx = s.sortedNodes ctx := by
    rw [ht]
    split
    · exact ensureResponseStarted_sortedNodes
    · rfl
  rw [foldl_sendEvent, ← hnodes]
  exact hkept.sortedNodes_keeps.finish sortedNodes_pairwise _ _

end Monoize.Urp
