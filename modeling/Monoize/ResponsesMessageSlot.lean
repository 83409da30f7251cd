import Mathlib.Data.List.Sort
import Monoize.ChatStreamShown
import Monoize.Fallible

/-! The message item of the Responses stream encoder (`urp/stream_encode/openai_responses`). The nodes of a message share
one slot, and a node is announced with its first fragment or its completion only. What is sent and the contents of the items
are left out; the first item of a node outside a message is a parameter. -/

namespace Monoize.Urp

open Fallible List Option

def responsesImageGenerationCallExtraKey : String := "_monoize_responses_image_generation_call"

def fileIdOriginExtraKey : String := "_monoize_file_id_origin"

inductive ResponsesOutputZone
  | message
  | imageGenerationCall
  | reasoning
  | functionCall
  | providerItem
  deriving DecidableEq

structure ActiveResponsesOutputItem where
  outputIndex : Nat
  itemId : String
  item : JsonMap
  nextContentIndex : Nat

structure StreamedNodeState where
  outputIndex : Nat
  zone : ResponsesOutputZone
  contentIndex : Option Nat
  itemId : String
  (phase callId : Option String)
  (messageStartEmitted outputItemStartEmitted : Bool)
  outputItemStart : Option JsonMap
  header : Option NodeHeader
  nodeExtraBody : JsonMap
  (isSharedMessageOutput messageAllocationDeferred : Bool)

/-- `messageId` is the random id of the message that a node opens. -/
structure ResponsesContext where
  messageId : Nat → String
  outputItem : ResponsesOutputZone → NodeHeader → JsonMap → JsonMap → JsonMap

structure ResponsesEncoder where
  nextOutputIndex : Nat := 0
  nodeStates : List (Nat × StreamedNodeState) := []
  pendingEnvelopeExtra : JsonMap := []
  activeNodeMessageOutput : Option ActiveResponsesOutputItem := none
  errorTerminalSent : Bool := false

def zoneFromNodeHeader (header : NodeHeader) (extraBody : JsonMap) : ResponsesOutputZone :=
  match header with
  | .image .. => if (extraBody.member responsesImageGenerationCallExtraKey).isSome then .imageGenerationCall else .message
  | .reasoning .. => .reasoning
  | .toolCall .. => .functionCall
  | .providerItem .. => .providerItem
  | _ => .message

def nodeHeaderId : NodeHeader → Option String
  | .text id .. | .image id _ | .audio id _ | .file id _ | .refusal id | .reasoning id | .toolCall id .. | .providerItem id ..
  | .toolResult id .. => id
  | .nextDownstreamEnvelopeExtra => none

def nodeHeaderPhase : NodeHeader → Option String
  | .text _ _ phase => phase
  | _ => none

def nodeHeaderCallId : NodeHeader → Option String
  | .toolCall _ _ callId _ | .toolResult _ _ callId => some callId
  | _ => none

def nodeHeaderRole : NodeHeader → String
  | .text _ role _ | .image _ role | .audio _ role | .file _ role | .providerItem _ _ role _ =>
    match role with
    | .system => "system"
    | .developer => "developer"
    | .user => "user"
    | .assistant => "assistant"
  | _ => "assistant"

def mergeJsonExtra (obj extra : JsonMap) : JsonMap := obj.extend (extra.filter fun e => ¬ isInternalExtraKey e.1)

def messageItemStub (newId : String) (header : NodeHeader) (extraBody envelopeExtra : JsonMap) : JsonMap :=
  let id := (nodeHeaderId header <|> extraBody.strMember "id" <|> envelopeExtra.strMember "id").getD newId
  let obj : JsonMap := [("content", .array []), ("id", .string id), ("role", .string (nodeHeaderRole header)),
    ("status", .string "in_progress"), ("type", .string "message")]
  let obj := match nodeHeaderPhase header with
    | some phase => obj.insert "phase" (.string phase)
    | none => obj
  mergeJsonExtra (mergeChatDeltaExtraPreservingTyped obj envelopeExtra) extraBody

def itemIdOf (item : JsonMap) : String := (item.strMember "id").getD ""

def fileIdOriginIsOpenai (extras : List JsonMap) : Bool :=
  let origins := extras.filterMap (JsonMap.member · fileIdOriginExtraKey)
  !origins.isEmpty && origins.all (· = .string "openai")

def responsesMediaDeltaIsEncodable (delta : NodeDelta) (nodeExtraBody eventExtraBody : JsonMap) : Option Bool :=
  match delta with
  | .image (.fileId ..) | .file (.fileId _) => some (fileIdOriginIsOpenai [nodeExtraBody, eventExtraBody])
  | .image _ | .file _ => some true
  | _ => none

def responsesMediaNodeIsEncodable (node : Node) (startExtraBody : JsonMap) : Bool :=
  match node with
  | .image _ _ (.fileId ..) extraBody | .file _ _ (.fileId _) extraBody => fileIdOriginIsOpenai [startExtraBody, extraBody]
  | .image .. | .file .. => true
  | _ => false

def imageGenerationCallDownstreamEvent (extraBody : JsonMap) : Option String :=
  match (extraBody.member "provider_event_type" <|> extraBody.member "type").bind JsonValue.asStr with
  | none => none
  | some eventType =>
    if eventType = "image_generation.partial_image" ∨ eventType = "response.image_generation.partial_image" then
      some "response.image_generation_call.partial_image"
    else if "response.image_generation_call.".toList.isPrefixOf eventType.toList then some eventType
    else none

def passesOn (delta : NodeDelta) (extraBody : JsonMap) : Bool :=
  match delta with
  | .image _ | .providerItem _ => (imageGenerationCallDownstreamEvent extraBody).isSome
  | _ => false

def streamReasoningJsonValueIsNonEmpty : JsonValue → Bool
  | .null => false
  | .string value => value ≠ ""
  | .array value => !value.isEmpty
  | .object value => !value.isEmpty
  | .bool _ | .int _ | .decimal _ => true

def reasoningHasMeaningfulPayload (content : Option String) (encrypted : Option JsonValue) (summary : Option String) : Bool :=
  content.any (· ≠ "") || summary.any (· ≠ "") || encrypted.any streamReasoningJsonValueIsNonEmpty

def streamReasoningDeltaHasMeaningfulPayload : NodeDelta → Bool
  | .reasoning content encrypted summary _ => reasoningHasMeaningfulPayload content encrypted summary
  | _ => false

def streamReasoningNodeHasMeaningfulPayload : Node → Bool
  | .reasoning _ content encrypted summary _ _ => reasoningHasMeaningfulPayload content encrypted summary
  | _ => false

def streamReasoningItemHasMeaningfulPayload (item : JsonMap) : Bool :=
  let parts (key : String) := ((item.member key).bind JsonValue.asArray).getD []
  (parts "summary").any (fun part => (part.getStr "text").any (· ≠ "")) ||
    (parts "content").any (fun part => (part.getStr "text" <|> part.getStr "summary").any (· ≠ "")) ||
    (item.strMember "text").any (· ≠ "") || (item.member "encrypted_content").any streamReasoningJsonValueIsNonEmpty

/-! The slot. -/

namespace ResponsesEncoder

def node? (s : ResponsesEncoder) (i : Nat) : Option StreamedNodeState := (s.nodeStates.find? (·.1 = i)).map (·.2)

def removeNode (s : ResponsesEncoder) (i : Nat) : ResponsesEncoder := { s with nodeStates := s.nodeStates.filter (·.1 ≠ i) }

def putNode (s : ResponsesEncoder) (i : Nat) (state : StreamedNodeState) : ResponsesEncoder :=
  { s with nodeStates := (s.nodeStates.filter (·.1 ≠ i)).orderedInsert (fun a b => a.1 ≤ b.1) (i, state) }

end ResponsesEncoder

open ResponsesEncoder

def startsNewSharedMessage (active : Option ActiveResponsesOutputItem) (phase : Option String) : Bool :=
  active.all fun active => JsonMap.strMember active.item "phase" ≠ phase

variable (ctx : ResponsesContext) (i : Nat) (state : StreamedNodeState)

def openSharedMessage (header : NodeHeader) (extraBody : JsonMap) (s : ResponsesEncoder) : ResponsesEncoder :=
  let item := messageItemStub (ctx.messageId i) header extraBody []
  { s with
    activeNodeMessageOutput := some ⟨s.nextOutputIndex, itemIdOf item, item, 0⟩
    nextOutputIndex := s.nextOutputIndex + 1 }

def joinSharedMessage (phase : Option String) (header : NodeHeader) (extraBody : JsonMap) (s : ResponsesEncoder) :
    ResponsesEncoder :=
  if startsNewSharedMessage s.activeNodeMessageOutput phase then openSharedMessage ctx i header extraBody s else s

def takeContentIndex (active : ActiveResponsesOutputItem) (s : ResponsesEncoder) : ResponsesEncoder :=
  { s with activeNodeMessageOutput := some { active with nextContentIndex := active.nextContentIndex + 1 } }

def materializeDeferredMessageState (s : ResponsesEncoder) : Except String (StreamedNodeState × ResponsesEncoder) := do
  let header ← orError "deferred message state retains its header" state.header
  let s := joinSharedMessage ctx i state.phase header state.nodeExtraBody s
  let active ← orError "deferred message allocation creates an active output" s.activeNodeMessageOutput
  pure ({ state with
    outputIndex := active.outputIndex
    contentIndex := some active.nextContentIndex
    itemId := active.itemId
    messageAllocationDeferred := false }, takeContentIndex active s)

def messageStartItem (header : NodeHeader) (s : ResponsesEncoder) : Except String JsonMap :=
  if state.isSharedMessageOutput then do
    let active ← orError "shared node message output exists"
      (s.activeNodeMessageOutput.filter (·.outputIndex = state.outputIndex))
    pure (JsonMap.insert (mergeJsonExtra (mergeChatDeltaExtraPreservingTyped active.item s.pendingEnvelopeExtra)
      state.nodeExtraBody) "status" (.string "in_progress"))
  else pure (messageItemStub (ctx.messageId i) header state.nodeExtraBody s.pendingEnvelopeExtra)

def ensureNodeMessageStartEmitted (s : ResponsesEncoder) : Except String (StreamedNodeState × ResponsesEncoder) :=
  if state.zone ≠ .message ∨ state.messageStartEmitted then pure (state, s)
  else match state.header with
    | none => pure (state, s)
    | some header => do
      let item ← messageStartItem ctx i state header s
      pure ({ state with itemId := itemIdOf item, messageStartEmitted := true }, { s with
        activeNodeMessageOutput := s.activeNodeMessageOutput.map fun active =>
          if state.isSharedMessageOutput ∧ active.outputIndex = state.outputIndex then
            { active with item := item, itemId := itemIdOf item }
          else active
        pendingEnvelopeExtra := [] })

def ensureReasoningOutputStartEmitted (s : ResponsesEncoder) : StreamedNodeState × ResponsesEncoder :=
  if state.zone ≠ .reasoning ∨ state.outputItemStartEmitted ∨ state.outputItemStart = none then (state, s)
  else ({ state with outputIndex := s.nextOutputIndex, outputItemStart := none, outputItemStartEmitted := true },
    { s with nextOutputIndex := s.nextOutputIndex + 1 })

/-! The terminal node of a node that is still open. -/

def headerFamilyMatches : Option NodeHeader → Node → Bool
  | some (.text ..), .text .. | some (.image ..), .image .. | some (.audio ..), .audio .. | some (.file ..), .file ..
  | some (.refusal _), .refusal .. | some (.providerItem ..), .providerItem .. | some (.reasoning _), .reasoning ..
  | some (.toolCall ..), .toolCall .. | some (.toolResult ..), .toolResult .. => true
  | _, _ => false

def terminalIdentity : Node → Option (ResponsesOutputZone × Option String × Option String)
  | .text id .. | .audio id .. | .file id .. | .refusal id .. => some (.message, id, none)
  | .image id _ _ extraBody =>
    some (if (extraBody.member responsesImageGenerationCallExtraKey).isSome then .imageGenerationCall else .message, id, none)
  | .providerItem id .. => some (.providerItem, id, none)
  | .reasoning id .. => some (.reasoning, id, none)
  | .toolCall id _ callId .. | .toolResult id _ callId .. => some (.functionCall, id, some callId)
  | .nextDownstreamEnvelopeExtra _ => none

def terminalOutputNodeMatchesState (node : Node) (state : StreamedNodeState) : Bool :=
  match terminalIdentity node with
  | none => false
  | some (zone, id, callId) =>
    state.zone = zone && ((callId.isSome && state.callId = callId) || (state.itemId ≠ "" && id = some state.itemId) ||
      (headerFamilyMatches state.header node && (id.isNone || (state.itemId = "" && (callId.isNone || state.callId.isNone)))))

def findTerminalOutputNodeForState (output : List Node) (preferredIndex : Nat) (state : StreamedNodeState)
    (usedPositions : List Nat) : Option (Nat × Node) :=
  let fits (e : Node × Nat) := !usedPositions.contains e.2 && terminalOutputNodeMatchesState e.1 state
  ((output[preferredIndex]?.map (·, preferredIndex)).filter fits <|> output.zipIdx.find? fits).map fun e => (e.2, e.1)

/-! The events. -/

def NodeHeader.isMedia : NodeHeader → Bool
  | .image .. | .file .. => true
  | _ => false

def startNode (header : NodeHeader) (extraBody : JsonMap) (s : ResponsesEncoder) : Except String ResponsesEncoder :=
  let zone := zoneFromNodeHeader header extraBody
  let state : StreamedNodeState := ⟨2 ^ 64 - 1, zone, none, "", nodeHeaderPhase header, nodeHeaderCallId header, false, false,
    none, some header, extraBody, true, false⟩
  if zone = .message ∧ header.isMedia then pure (s.putNode i { state with messageAllocationDeferred := true })
  else if zone = .message then do
    let s := joinSharedMessage ctx i state.phase header extraBody s
    let active ← orError "message node stream output exists" s.activeNodeMessageOutput
    pure ((takeContentIndex active s).putNode i
      { state with outputIndex := active.outputIndex, contentIndex := some active.nextContentIndex, itemId := active.itemId })
  else
    let item := ctx.outputItem zone header extraBody s.pendingEnvelopeExtra
    let defer := zone = .reasoning ∧ ¬ streamReasoningItemHasMeaningfulPayload item
    let state := { state with
      outputIndex := if defer then 2 ^ 64 - 1 else s.nextOutputIndex
      itemId := itemIdOf item
      messageStartEmitted := true
      outputItemStartEmitted := ¬ defer
      outputItemStart := if defer then some item else none
      isSharedMessageOutput := false }
    pure (ResponsesEncoder.putNode { s with
      pendingEnvelopeExtra := []
      nextOutputIndex := if defer then s.nextOutputIndex else s.nextOutputIndex + 1 } i state)

def extendPlacedNode (delta : NodeDelta) (placed : StreamedNodeState × ResponsesEncoder) :
    Except String ResponsesEncoder := do
  let started :=
    if streamReasoningDeltaHasMeaningfulPayload delta then ensureReasoningOutputStartEmitted placed.1 placed.2 else placed
  let announced ← ensureNodeMessageStartEmitted ctx i started.1 started.2
  pure (announced.2.putNode i announced.1)

def extendNode (delta : NodeDelta) (extraBody : JsonMap) (s : ResponsesEncoder) : Except String ResponsesEncoder :=
  match s.node? i with
  | none => pure s
  | some state => do
    let decision := if state.messageAllocationDeferred then
        responsesMediaDeltaIsEncodable delta state.nodeExtraBody extraBody
      else none
    if decision = some false then pure (s.removeNode i)
    else if decision = none ∧ state.messageAllocationDeferred then pure s
    else
      let placed ← if decision = some true then materializeDeferredMessageState ctx i state s else pure (state, s)
      extendPlacedNode ctx i delta placed

def claimItemId (s : ResponsesEncoder) : ResponsesEncoder :=
  { s with activeNodeMessageOutput := s.activeNodeMessageOutput.map fun active =>
      if state.isSharedMessageOutput ∧ active.outputIndex = state.outputIndex ∧ active.itemId = "" then
        { active with itemId := state.itemId }
      else active }

def completePlacedNode (node : Node) (placed : StreamedNodeState × ResponsesEncoder) : Except String ResponsesEncoder :=
  let started :=
    if streamReasoningNodeHasMeaningfulPayload node then ensureReasoningOutputStartEmitted placed.1 placed.2 else placed
  if started.1.zone = .reasoning ∧ ¬ started.1.outputItemStartEmitted then pure started.2
  else do
    let announced ← ensureNodeMessageStartEmitted ctx i started.1 started.2
    pure (claimItemId announced.1 announced.2)

def completeNode (node : Node) (s : ResponsesEncoder) : Except String ResponsesEncoder :=
  match s.node? i with
  | none => pure s
  | some state =>
    if state.messageAllocationDeferred ∧ ¬ responsesMediaNodeIsEncodable node state.nodeExtraBody then pure (s.removeNode i)
    else do
      let placed ← if state.messageAllocationDeferred then materializeDeferredMessageState ctx i state (s.removeNode i)
        else pure (state, s.removeNode i)
      completePlacedNode ctx i node placed

/-- The nodes that are open when the response ends, in index order; a node that is not in the output and is no message is
completed without the slot. -/
def completeOpenNodes (ctx : ResponsesContext) (output : List Node) :
    List (Nat × StreamedNodeState) → List Nat → ResponsesEncoder → Except String ResponsesEncoder
  | [], _, s => pure s
  | (i, state) :: rest, used, s =>
    match findTerminalOutputNodeForState output i state used with
    | none => completeOpenNodes ctx output rest used s
    | some (position, _) => do
      let (state, s) ← ensureNodeMessageStartEmitted ctx i state s
      completeOpenNodes ctx output rest (position :: used) (claimItemId state s)

def Node.isForeignItem : Node → Bool
  | .providerItem _ protocol .. => protocol ≠ .responses
  | .nextDownstreamEnvelopeExtra _ => true
  | _ => false

def encodeResponsesEvent (s : ResponsesEncoder) (event : UrpStreamEvent) : Except String ResponsesEncoder :=
  if s.errorTerminalSent then pure s
  else match event with
    | .nodeStart _ .nextDownstreamEnvelopeExtra extraBody =>
      pure { s with pendingEnvelopeExtra := mergeChatDeltaExtraPreservingTyped s.pendingEnvelopeExtra extraBody }
    | .nodeStart i header extraBody =>
      match header with
      | .providerItem _ .responses _ _ => startNode ctx i header extraBody s
      | .providerItem .. => pure s
      | _ => startNode ctx i header extraBody s
    | .nodeDelta i delta extraBody => if passesOn delta extraBody then pure s else extendNode ctx i delta extraBody s
    | .nodeDone i node _ => if node.isForeignItem then pure s else completeNode ctx i node s
    | .responseDone _ output _ => do
      let s ← completeOpenNodes ctx output s.nodeStates [] s
      pure { s with nodeStates := [], activeNodeMessageOutput := none }
    | .error .. => pure { s with errorTerminalSent := true }
    | _ => pure s

def encodeUrpStreamAsResponses (events : List UrpStreamEvent) : Except String ResponsesEncoder :=
  events.foldlM (encodeResponsesEvent ctx) {}

/-! The events that replace the slot, and the nodes that wait for it. -/

abbrev WaitingNodes : Type := List (Nat × NodeHeader)

def NodeDelta.isMedia : NodeDelta → Bool
  | .image _ | .file _ => true
  | _ => false

def Node.isMedia : Node → Bool
  | .image .. | .file .. => true
  | _ => false

def NodeHeader.joinsMessage (header : NodeHeader) (extraBody : JsonMap) : Bool :=
  header ≠ .nextDownstreamEnvelopeExtra && zoneFromNodeHeader header extraBody = .message

/-- The phase of the message that the event asks for: a node asks with its start, and an image or a file with a fragment or
its completion. -/
def UrpStreamEvent.messagePhase : UrpStreamEvent → Option (Option String)
  | .nodeStart _ header extraBody =>
    if header.joinsMessage extraBody ∧ header.isMedia = false then some (nodeHeaderPhase header) else none
  | .nodeDelta _ delta _ => if delta.isMedia then some none else none
  | .nodeDone _ node _ => if node.isMedia then some none else none
  | _ => none

def UrpStreamEvent.startBody : UrpStreamEvent → Option JsonMap
  | .nodeStart _ _ extraBody => some extraBody
  | _ => none

/-- The event announces the node, or drops it. -/
def UrpStreamEvent.answers (header : NodeHeader) : UrpStreamEvent → Bool
  | .nodeDelta j delta extraBody => j = i && !passesOn delta extraBody && (!header.isMedia || delta.isMedia)
  | .nodeDone j node _ => j = i && !node.isForeignItem
  | .responseDone .. => true
  | _ => false

/-- The message nodes that have started and that no event has announced. -/
def UrpStreamEvent.waiting (e : UrpStreamEvent) (waiting : WaitingNodes) : WaitingNodes :=
  let rest := waiting.filter fun n => !e.answers n.1 n.2
  match e with
  | .nodeStart i header extraBody => if header.joinsMessage extraBody then (i, header) :: rest else rest
  | _ => rest

def PhaseFree (waiting : WaitingNodes) (phase : Option String) : Prop :=
  ∀ n ∈ waiting, n.2.isMedia = false → nodeHeaderPhase n.2 = phase

instance (waiting : WaitingNodes) (phase : Option String) : Decidable (PhaseFree waiting phase) :=
  inferInstanceAs (Decidable (∀ n ∈ waiting, n.2.isMedia = false → nodeHeaderPhase n.2 = phase))

/-- No message is opened over one of another phase in which a node waits, and the response does not end with a node for an
image or a file that waits. -/
def KeepsMessages (waiting : WaitingNodes) : List UrpStreamEvent → Prop
  | [] => True
  | e :: events => (∀ phase ∈ e.messagePhase, PhaseFree waiting phase) ∧
      (∀ extraBody ∈ e.startBody, extraBody.member "phase" = none) ∧
      (∀ output ∈ e.output, ∀ n ∈ waiting, n.2.isMedia = true → ∀ node ∈ output, headerFamilyMatches (some n.2) node = false) ∧
      KeepsMessages (e.waiting waiting) events

instance decidableKeepsMessages :
    (waiting : WaitingNodes) → (events : List UrpStreamEvent) → Decidable (KeepsMessages waiting events)
  | _, [] => inferInstanceAs (Decidable True)
  | waiting, e :: events =>
    have := decidableKeepsMessages (e.waiting waiting) events
    inferInstanceAs (Decidable (_ ∧ _ ∧ _ ∧ _))

variable {ctx : ResponsesContext} {s s' : ResponsesEncoder} {state state' : StreamedNodeState} {i : Nat} {header : NodeHeader}
  {waiting : WaitingNodes} {e : UrpStreamEvent} {extraBody : JsonMap}

variable {node : Node} {output : List Node} {used : List Nat}

theorem UrpStreamEvent.mem_waiting {n : Nat × NodeHeader} (h : n ∈ waiting) (he : e.answers n.1 n.2 = false) :
    n ∈ e.waiting waiting := by
  have hrest : n ∈ waiting.filter fun n => !e.answers n.1 n.2 := mem_filter.mpr ⟨h, by rw [he]; rfl⟩
  unfold UrpStreamEvent.waiting
  dsimp only
  split
  · split
    · exact mem_cons_of_mem _ hrest
    · exact hrest
  · exact hrest

/-! The phase of the slot. -/

theorem strMember_mergeJsonExtra {obj : JsonMap} (h : extraBody.member "phase" = none) :
    (mergeJsonExtra obj extraBody).strMember "phase" = obj.strMember "phase" := by
  unfold mergeJsonExtra JsonMap.strMember
  rw [member_extend_of_none (member_filter_none h _)]

theorem messageItemStub_phase (newId : String) (header : NodeHeader) (h : extraBody.member "phase" = none) :
    (messageItemStub newId header extraBody []).strMember "phase" = nodeHeaderPhase header := by
  unfold messageItemStub
  rw [strMember_mergeJsonExtra h]
  unfold JsonMap.strMember
  rw [member_merge (.inr rfl)]
  cases nodeHeaderPhase header with
  | none => rfl
  | some phase => dsimp only; rw [JsonMap.member_insert, if_pos rfl]; rfl

abbrev MessageSlot : Type := Option (Nat × Option String)

def ResponsesEncoder.slot (s : ResponsesEncoder) : MessageSlot :=
  s.activeNodeMessageOutput.map fun active => (active.outputIndex, active.item.strMember "phase")

structure StreamedNodeState.Sound (state : StreamedNodeState) (header : NodeHeader) : Prop where
  named : state.header = some header
  phase : state.phase = nodeHeaderPhase header
  extra : state.nodeExtraBody.member "phase" = none
  shared : state.zone = .message → state.isSharedMessageOutput = true
  deferred : state.messageAllocationDeferred = true → header.isMedia = true ∧ state.zone = .message ∧
    state.messageStartEmitted = false ∧ state.itemId = "" ∧ state.callId = none

/-- An allocated node: a message that is not announced has the slot. -/
structure StreamedNodeState.Placed (state : StreamedNodeState) (header : NodeHeader) (slot : MessageSlot) : Prop where
  sound : state.Sound header
  owns : state.zone = .message → state.messageStartEmitted = false → slot = some (state.outputIndex, state.phase)
  placed : state.messageAllocationDeferred = false

/-- A message node that is not announced waits, and has the slot once it is allocated. -/
structure NodeKept (waiting : WaitingNodes) (slot : MessageSlot) (i : Nat) (state : StreamedNodeState)
    (header : NodeHeader) : Prop where
  sound : state.Sound header
  waits : state.zone = .message → state.messageStartEmitted = false → (i, header) ∈ waiting
  media : state.zone = .message → state.messageStartEmitted = false → header.isMedia = state.messageAllocationDeferred
  placed : state.messageAllocationDeferred = false → state.Placed header slot

structure SlotInv (waiting : WaitingNodes) (s : ResponsesEncoder) : Prop where
  pending : s.pendingEnvelopeExtra.member "phase" = none
  unique : ∀ m ∈ s.nodeStates, ∀ n ∈ s.nodeStates, m.1 = n.1 → m = n
  nodes : ∀ n ∈ s.nodeStates, ∃ header, NodeKept waiting s.slot n.1 n.2 header

structure SlotWrite (s s' : ResponsesEncoder) : Prop where
  nodeStates : s'.nodeStates = s.nodeStates
  slot : s'.slot = s.slot
  pending : s.pendingEnvelopeExtra.member "phase" = none → s'.pendingEnvelopeExtra.member "phase" = none

theorem SlotWrite.trans {t : ResponsesEncoder} (h : SlotWrite s s') (h' : SlotWrite s' t) : SlotWrite s t :=
  ⟨h'.nodeStates.trans h.nodeStates, h'.slot.trans h.slot, h'.pending ∘ h.pending⟩

theorem NodeKept.of_announced {slot : MessageSlot} (h : state.Sound header)
    (hstart : state.zone = .message → state.messageStartEmitted = true) : NodeKept waiting slot i state header := by
  have hno {p : Prop} (hzone : state.zone = .message) (hwaits : state.messageStartEmitted = false) : p := by
    rw [hstart hzone] at hwaits
    cases hwaits
  exact ⟨h, hno, hno, fun hplaced => ⟨h, hno, hplaced⟩⟩

namespace SlotInv

theorem node? (h : SlotInv waiting s) (hstate : s.node? i = some state) :
    (i, state) ∈ s.nodeStates ∧ ∃ header, NodeKept waiting s.slot i state header := by
  obtain ⟨n, hn, rfl⟩ := map_eq_some_iff.mp hstate
  obtain rfl : n.1 = i := by simpa using find?_some hn
  exact ⟨mem_of_find?_eq_some hn, h.nodes n (mem_of_find?_eq_some hn)⟩

theorem write (h : SlotInv waiting s) (hw : SlotWrite s s') : SlotInv waiting s' := by
  obtain ⟨hpending, hunique, hnodes⟩ := h
  rw [← hw.nodeStates] at hunique
  refine ⟨hw.pending hpending, hunique, fun n hn => ?_⟩
  rw [hw.slot]
  exact hnodes n (hw.nodeStates ▸ hn)

theorem snoc (h : SlotInv waiting s) (he : ∀ n ∈ s.nodeStates, ∀ header, header.isMedia = n.2.messageAllocationDeferred →
    e.answers n.1 header = false) : SlotInv (e.waiting waiting) s := by
  refine ⟨h.pending, h.unique, fun n hn => ?_⟩
  obtain ⟨header, hkept⟩ := h.nodes n hn
  refine ⟨header, { hkept with waits := fun hzone hstart => ?_ }⟩
  exact UrpStreamEvent.mem_waiting (hkept.waits hzone hstart) (he n hn header (hkept.media hzone hstart))

theorem removeNode (h : SlotInv waiting s) (i : Nat) : SlotInv waiting (s.removeNode i) :=
  ⟨h.pending, fun m hm n hn => h.unique m (mem_of_mem_filter hm) n (mem_of_mem_filter hn),
    fun n hn => h.nodes n (mem_of_mem_filter hn)⟩

theorem snoc_removeNode (h : SlotInv waiting (s.removeNode i)) (he : ∀ j header, j ≠ i → e.answers j header = false) :
    SlotInv (e.waiting waiting) (s.removeNode i) :=
  h.snoc fun n hn header _ => he n.1 header (by simpa using of_mem_filter hn)

theorem snoc_none (h : SlotInv waiting s) (hnode : s.node? i = none)
    (he : ∀ j header, j ≠ i → e.answers j header = false) : SlotInv (e.waiting waiting) s :=
  h.snoc fun n hn header _ => he n.1 header (by simpa using find?_eq_none.mp (map_eq_none_iff.mp hnode) n hn)

theorem putNode (h : SlotInv waiting (s.removeNode i)) (hkept : NodeKept waiting s.slot i state header) :
    SlotInv waiting (s.putNode i state) := by
  have hcases : ∀ n ∈ (s.putNode i state).nodeStates, n = (i, state) ∨ n ∈ (s.removeNode i).nodeStates ∧ n.1 ≠ i := by
    intro n hn
    refine ((mem_orderedInsert _).mp hn).imp_right fun hn => ⟨hn, by simpa using of_mem_filter hn⟩
  refine ⟨h.pending, fun m hm n hn hindex => ?_, fun n hn => ?_⟩
  · rcases hcases m hm with rfl | ⟨hm, hmi⟩ <;> rcases hcases n hn with rfl | ⟨hn, hni⟩
    · rfl
    · exact absurd hindex.symm hni
    · exact absurd hindex hmi
    · exact h.unique m hm n hn hindex
  · rcases hcases n hn with rfl | ⟨hn, -⟩
    · exact ⟨header, hkept⟩
    · exact h.nodes n hn

theorem start (h : SlotInv waiting s)
    (hkept : NodeKept (UrpStreamEvent.waiting (.nodeStart i header extraBody) waiting) s.slot i
    state header) : SlotInv (UrpStreamEvent.waiting (.nodeStart i header extraBody) waiting) (s.putNode i state) :=
  ((h.removeNode i).snoc_removeNode fun _ _ _ => rfl).putNode hkept

end SlotInv

/-! What the helpers do to the slot. -/

theorem slot_map {f : ActiveResponsesOutputItem → ActiveResponsesOutputItem}
    (h : ∀ active, s.activeNodeMessageOutput = some active →
      (f active).outputIndex = active.outputIndex ∧ (f active).item.strMember "phase" = active.item.strMember "phase")
    (hs : s'.activeNodeMessageOutput = s.activeNodeMessageOutput.map f) : s'.slot = s.slot := by
  unfold ResponsesEncoder.slot
  rw [hs]
  cases hactive : s.activeNodeMessageOutput with
  | none => rfl
  | some active => simp [h active hactive]

theorem claimItemId_slot (state : StreamedNodeState) (s : ResponsesEncoder) : SlotWrite s (claimItemId state s) := by
  refine ⟨rfl, slot_map (fun active _ => ?_) rfl, id⟩
  split <;> exact ⟨rfl, rfl⟩

variable (ctx i)

theorem ensureNodeMessageStartEmitted_ok (h : state.Placed header s.slot)
    (hpending : s.pendingEnvelopeExtra.member "phase" = none) :
    ∃ state' s', ensureNodeMessageStartEmitted ctx i state s = .ok (state', s') ∧ SlotWrite s s' ∧ state'.Sound header ∧
      (state'.zone = .message → state'.messageStartEmitted = true) := by
  unfold ensureNodeMessageStartEmitted
  by_cases hskip : state.zone ≠ .message ∨ state.messageStartEmitted = true
  · rw [if_pos hskip]
    exact ⟨state, s, rfl, ⟨rfl, rfl, id⟩, h.sound, fun hzone => hskip.resolve_left (not_not_intro hzone)⟩
  obtain ⟨hsound, howns, hplaced⟩ := h
  rw [if_neg hskip, hsound.named]
  push Not at hskip
  obtain ⟨active, hactive, hslot⟩ := map_eq_some_iff.mp (howns hskip.1 (by simpa using hskip.2))
  obtain ⟨hindex, -⟩ := Prod.mk.inj hslot
  simp only [messageStartItem, hsound.shared hskip.1, hactive, hindex, filter_some, decide_true, if_true, orError_some]
  refine ⟨_, _, rfl, ⟨rfl, ?_, fun _ => rfl⟩, ⟨rfl, hsound.phase, hsound.extra, fun _ => rfl, fun hno => ?_⟩, fun _ => rfl⟩
  · simp only [ResponsesEncoder.slot, hactive, hindex, map_some, and_self, if_true]
    unfold JsonMap.strMember
    rw [JsonMap.member_insert, if_neg (by decide)]
    change some (_, (mergeJsonExtra _ _).strMember "phase") = _
    rw [strMember_mergeJsonExtra hsound.extra, JsonMap.strMember, member_merge (.inr hpending)]
  · rw [hplaced] at hno
    cases hno

theorem reasoningStart_ok (b : Bool) (h : state.Placed header s.slot) :
    ∃ state' s', (if b then ensureReasoningOutputStartEmitted state s else (state, s)) = (state', s') ∧ SlotWrite s s' ∧
      state'.Placed header s'.slot := by
  unfold ensureReasoningOutputStartEmitted
  split
  · split
    · exact ⟨state, s, rfl, ⟨rfl, rfl, id⟩, h⟩
    rename_i hreasoning
    push Not at hreasoning
    obtain ⟨⟨hnamed, hphase, hextra, hshared, hdeferred⟩, -, hplaced⟩ := h
    refine ⟨_, _, rfl, ⟨rfl, rfl, id⟩, ⟨hnamed, hphase, hextra, hshared, hdeferred⟩, fun hzone => ?_, hplaced⟩
    exact absurd (hreasoning.1.symm.trans hzone) (by decide)
  · exact ⟨state, s, rfl, ⟨rfl, rfl, id⟩, h⟩

theorem extendPlacedNode_ok (delta : NodeDelta) (hinv : SlotInv waiting (s.removeNode i)) (h : state.Placed header s.slot) :
    ∃ s', extendPlacedNode ctx i delta (state, s) = .ok s' ∧ SlotInv waiting s' := by
  obtain ⟨state₁, s₁, hreasoning, hw₁, h₁⟩ := reasoningStart_ok (streamReasoningDeltaHasMeaningfulPayload delta) h
  obtain ⟨state₂, s₂, hstart, hw₂, h₂, hemitted⟩ := ensureNodeMessageStartEmitted_ok ctx i h₁ (hw₁.pending hinv.pending)
  have hw := hw₁.trans hw₂
  unfold extendPlacedNode
  rw [hreasoning]
  dsimp only
  rw [hstart]
  refine ⟨_, rfl, SlotInv.putNode (hinv.write ⟨?_, hw.slot, hw.pending⟩) (.of_announced h₂ hemitted)⟩
  simp only [ResponsesEncoder.removeNode, hw.nodeStates]

theorem completePlacedNode_ok (node : Node) (hinv : SlotInv waiting s) (h : state.Placed header s.slot) :
    ∃ s', completePlacedNode ctx i node (state, s) = .ok s' ∧ SlotInv waiting s' := by
  obtain ⟨state₁, s₁, hreasoning, hw₁, h₁⟩ := reasoningStart_ok (streamReasoningNodeHasMeaningfulPayload node) h
  obtain ⟨state₂, s₂, hstart, hw₂, -⟩ := ensureNodeMessageStartEmitted_ok ctx i h₁ (hw₁.pending hinv.pending)
  unfold completePlacedNode
  dsimp only
  rw [hreasoning, hstart]
  split
  · exact ⟨s₁, rfl, hinv.write hw₁⟩
  · exact ⟨_, rfl, hinv.write ((hw₁.trans hw₂).trans (claimItemId_slot state₂ s₂))⟩

/-! The message that a node joins. -/

theorem joinSharedMessage_ok (hinv : SlotInv waiting s)
    (hextra : extraBody.member "phase" = none)
    (hphase : PhaseFree waiting (nodeHeaderPhase header)) :
    ∃ s' active, joinSharedMessage ctx i (nodeHeaderPhase header) header extraBody s = s' ∧
      s'.activeNodeMessageOutput = some active ∧ s'.slot = some (active.outputIndex, nodeHeaderPhase header) ∧
      SlotInv waiting s' ∧ s'.nodeStates = s.nodeStates := by
  unfold joinSharedMessage
  split
  · rename_i hnew
    have hitem := messageItemStub_phase (ctx.messageId i) header hextra
    refine ⟨_, _, rfl, rfl, congrArg some (Prod.ext rfl hitem), ⟨hinv.pending, hinv.unique, fun n hn => ?_⟩, rfl⟩
    obtain ⟨other, hkept⟩ := hinv.nodes n hn
    refine ⟨other, { hkept with placed := fun hplaced => ⟨hkept.sound, fun hzone hstart => ?_, hplaced⟩ }⟩
    -- A node that waits has the phase of the slot and, by assumption, the phase asked for: then no message is opened.
    obtain ⟨active, hactive, hslot⟩ := map_eq_some_iff.mp ((hkept.placed hplaced).owns hzone hstart)
    have hother := hphase _ (hkept.waits hzone hstart) ((hkept.media hzone hstart).trans hplaced)
    have hsame : active.item.strMember "phase" = nodeHeaderPhase header := by
      rw [(Prod.mk.inj hslot).2, hkept.sound.phase, hother]
    simp [startsNewSharedMessage, hactive, hsame] at hnew
  · rename_i hkept
    cases hactive : s.activeNodeMessageOutput with
    | none => exact absurd (by rw [hactive]; rfl) hkept
    | some active =>
      rw [hactive] at hkept
      have hsame : active.item.strMember "phase" = nodeHeaderPhase header := by simpa [startsNewSharedMessage] using hkept
      exact ⟨s, active, rfl, hactive, by rw [ResponsesEncoder.slot, hactive, map_some, hsame], hinv, rfl⟩

theorem takeContentIndex_slot {active : ActiveResponsesOutputItem} (h : s.activeNodeMessageOutput = some active) :
    SlotWrite s (takeContentIndex active s) :=
  ⟨rfl, by simp [ResponsesEncoder.slot, takeContentIndex, h], id⟩

theorem materializeDeferredMessageState_ok (hinv : SlotInv waiting s)
    (h : state.Sound header)
    (hphase : PhaseFree waiting (nodeHeaderPhase header)) :
    ∃ state' s', materializeDeferredMessageState ctx i state s = .ok (state', s') ∧ state'.Placed header s'.slot ∧
      SlotInv waiting s' ∧ s'.nodeStates = s.nodeStates := by
  obtain ⟨s₁, active, hs₁, hactive, hslot, hinv₁, hnodes⟩ := joinSharedMessage_ok ctx i hinv h.extra hphase
  unfold materializeDeferredMessageState
  rw [h.named, orError_some, ok_bind]
  dsimp only
  rw [h.phase, hs₁, hactive]
  have htake := takeContentIndex_slot hactive
  exact ⟨_, _, rfl, ⟨⟨rfl, rfl, h.extra, h.shared, fun hno => by cases hno⟩, fun _ _ => htake.slot.trans hslot, rfl⟩,
    hinv₁.write htake, hnodes⟩

/-! The events of a stream. -/

theorem startNode_ok (hinv : SlotInv waiting s) (hextra : extraBody.member "phase" = none)
    (hheader : header ≠ .nextDownstreamEnvelopeExtra)
    (hphase : header.joinsMessage extraBody = true → header.isMedia = false → PhaseFree waiting (nodeHeaderPhase header)) :
    ∃ s', startNode ctx i header extraBody s = .ok s' ∧
      SlotInv (UrpStreamEvent.waiting (.nodeStart i header extraBody) waiting) s' := by
  have hjoins : zoneFromNodeHeader header extraBody = .message → header.joinsMessage extraBody = true := by
    intro hzone
    simp [NodeHeader.joinsMessage, hheader, hzone]
  have hwaits : zoneFromNodeHeader header extraBody = .message →
      (i, header) ∈ UrpStreamEvent.waiting (.nodeStart i header extraBody) waiting := by
    intro hzone
    simp [UrpStreamEvent.waiting, hjoins hzone]
  unfold startNode
  dsimp only
  split
  · rename_i hmedia
    have hcall : nodeHeaderCallId header = none := by
      cases header <;> first | rfl | cases hmedia.2
    exact ⟨_, rfl, hinv.start ⟨⟨rfl, rfl, hextra, fun _ => rfl, fun _ => ⟨hmedia.2, hmedia.1, rfl, rfl, hcall⟩⟩,
      fun _ _ => hwaits hmedia.1, fun _ _ => hmedia.2, fun hno => by cases hno⟩⟩
  · split
    · rename_i hnone hzone
      have hplain : header.isMedia = false := by simpa [hzone] using hnone
      obtain ⟨s₁, active, hs₁, hactive, hslot, hinv₁, -⟩ := joinSharedMessage_ok ctx i hinv hextra
        (hphase (hjoins hzone) hplain)
      rw [hs₁, hactive]
      have htake := takeContentIndex_slot hactive
      exact ⟨_, rfl, (hinv₁.write htake).start ⟨⟨rfl, rfl, hextra, fun _ => rfl, fun hno => by cases hno⟩,
        fun _ _ => hwaits hzone, fun _ _ => hplain, fun _ => ⟨⟨rfl, rfl, hextra, fun _ => rfl, fun hno => by cases hno⟩,
        fun _ _ => htake.slot.trans hslot, rfl⟩⟩⟩
    · rename_i hzone
      have hwrite : SlotWrite s { s with
          pendingEnvelopeExtra := []
          nextOutputIndex := if zoneFromNodeHeader header extraBody = .reasoning ∧ ¬ streamReasoningItemHasMeaningfulPayload
            (ctx.outputItem (zoneFromNodeHeader header extraBody) header extraBody s.pendingEnvelopeExtra) then
              s.nextOutputIndex else s.nextOutputIndex + 1 } := ⟨rfl, rfl, fun _ => rfl⟩
      exact ⟨_, rfl, (hinv.write hwrite).start (.of_announced ⟨rfl, rfl, hextra,
        fun hmessage => absurd hmessage hzone, fun hno => by cases hno⟩ fun _ => rfl)⟩

theorem nodeHeaderPhase_of_isMedia (h : header.isMedia = true) : nodeHeaderPhase header = none := by
  cases header <;> first | rfl | cases h

theorem responsesMediaDeltaIsEncodable_isSome (delta : NodeDelta) (nodeExtraBody extraBody : JsonMap) :
    (responsesMediaDeltaIsEncodable delta nodeExtraBody extraBody).isSome = delta.isMedia := by
  cases delta with
  | image source | file source => cases source <;> rfl
  | _ => rfl

theorem isMedia_of_isEncodable (h : responsesMediaNodeIsEncodable node extraBody = true) : node.isMedia = true := by
  cases node <;> first | rfl | cases h

theorem extendNode_ok {delta : NodeDelta} (hinv : SlotInv waiting s)
    (hphase : delta.isMedia = true → PhaseFree waiting none) :
    ∃ s', extendNode ctx i delta extraBody s = .ok s' ∧
      SlotInv (UrpStreamEvent.waiting (.nodeDelta i delta extraBody) waiting) s' := by
  have hothers : ∀ j header, j ≠ i → UrpStreamEvent.answers j header (.nodeDelta i delta extraBody) = false :=
    fun j header hj => by simp [UrpStreamEvent.answers, hj.symm]
  have hremoved := (hinv.removeNode i).snoc_removeNode hothers
  unfold extendNode
  cases hnode : s.node? i with
  | none => exact ⟨s, rfl, hinv.snoc_none hnode hothers⟩
  | some state =>
    obtain ⟨hmem, header, hkept⟩ := hinv.node? hnode
    cases hdeferred : state.messageAllocationDeferred with
    | false => simpa [hdeferred] using extendPlacedNode_ok ctx i delta hremoved (hkept.placed hdeferred)
    | true =>
      have hmedia := (hkept.sound.deferred hdeferred).1
      have hisSome := responsesMediaDeltaIsEncodable_isSome delta state.nodeExtraBody extraBody
      cases hdecision : responsesMediaDeltaIsEncodable delta state.nodeExtraBody extraBody with
      | none =>
        -- The fragment is for no image and no file: the node keeps waiting.
        refine ⟨s, by simp [hdeferred, hdecision], hinv.snoc fun n hn header hn' => ?_⟩
        by_cases hn₁ : n.1 = i
        · obtain rfl := hinv.unique n hn (i, state) hmem hn₁
          rw [hdecision] at hisSome
          simp [UrpStreamEvent.answers, hn'.trans hdeferred, ← hisSome]
        · exact hothers n.1 header hn₁
      | some encodable =>
        rw [hdecision] at hisSome
        cases encodable with
        | false => exact ⟨s.removeNode i, by simp [hdeferred, hdecision], hremoved⟩
        | true =>
          obtain ⟨state₀, s₀, hmat, h₀, hinv₀, -⟩ := materializeDeferredMessageState_ok ctx i hinv
            hkept.sound (nodeHeaderPhase_of_isMedia hmedia ▸ hphase hisSome.symm)
          simpa [hdeferred, hdecision, hmat] using
            extendPlacedNode_ok ctx i delta ((hinv₀.removeNode i).snoc_removeNode hothers) h₀

theorem completeNode_ok (hinv : SlotInv waiting s)
    (hphase : node.isMedia = true → PhaseFree waiting none) :
    ∃ s', completeNode ctx i node s = .ok s' ∧ SlotInv (UrpStreamEvent.waiting (.nodeDone i node extraBody) waiting) s' := by
  have hothers : ∀ j header, j ≠ i → UrpStreamEvent.answers j header (.nodeDone i node extraBody) = false :=
    fun j header hj => by simp [UrpStreamEvent.answers, hj.symm]
  have hremoved := (hinv.removeNode i).snoc_removeNode hothers
  unfold completeNode
  cases hnode : s.node? i with
  | none => exact ⟨s, rfl, hinv.snoc_none hnode hothers⟩
  | some state =>
    obtain ⟨-, header, hkept⟩ := hinv.node? hnode
    cases hdeferred : state.messageAllocationDeferred with
    | false => simpa [hdeferred] using completePlacedNode_ok ctx i node hremoved (hkept.placed hdeferred)
    | true =>
      dsimp only
      split
      · exact ⟨_, rfl, hremoved⟩
      rename_i hencodable
      have hnone := nodeHeaderPhase_of_isMedia (hkept.sound.deferred hdeferred).1
      obtain ⟨state₀, s₀, hmat, h₀, hinv₀, hnodes⟩ := materializeDeferredMessageState_ok ctx i
        (hinv.removeNode i) hkept.sound (hnone ▸ hphase (isMedia_of_isEncodable (by simpa [hdeferred] using hencodable)))
      have hinv₁ := hinv₀.snoc fun n hn header _ => hothers n.1 header (by
        rw [hnodes] at hn
        simpa using of_mem_filter hn)
      simpa [hmat] using completePlacedNode_ok ctx i node hinv₁ h₀

variable {i}

theorem mem_of_findTerminal {position : Nat}
    (h : findTerminalOutputNodeForState output i state used = some (position, node)) :
    node ∈ output ∧ terminalOutputNodeMatchesState node state = true := by
  obtain ⟨⟨node', position'⟩, hfound, heq⟩ := map_eq_some_iff.mp h
  cases heq
  rw [orElse_eq_orElse, orElse_eq_or, or_eq_some_iff] at hfound
  rcases hfound with hfound | ⟨-, hfound⟩
  · obtain ⟨hfound, hfits⟩ := Option.filter_eq_some_iff.mp hfound
    obtain ⟨node, hnode, heq⟩ := map_eq_some_iff.mp hfound
    cases heq
    exact ⟨mem_of_getElem? hnode, (Bool.and_eq_true_iff.mp hfits).2⟩
  · obtain ⟨-, hmem⟩ := mem_zipIdx' (mem_of_find?_eq_some hfound)
    have hfits := find?_some hfound
    rw [Bool.and_eq_true] at hfits
    exact ⟨hmem ▸ getElem_mem _, hfits.2⟩

theorem headerFamilyMatches_of_deferred (hid : state.itemId = "") (hcall : state.callId = none)
    (h : terminalOutputNodeMatchesState node state = true) : headerFamilyMatches state.header node = true := by
  unfold terminalOutputNodeMatchesState at h
  split at h
  · cases h
  · rename_i zone id callId _
    cases callId <;> simp_all

theorem completeOpenNodes_ok {nodes : List (Nat × StreamedNodeState)}
    (hends : ∀ n ∈ waiting, n.2.isMedia = true → ∀ node ∈ output, headerFamilyMatches (some n.2) node = false)
    (hpending : s.pendingEnvelopeExtra.member "phase" = none)
    (hnodes : ∀ n ∈ nodes, ∃ header, NodeKept waiting s.slot n.1 n.2 header) :
    ∃ s', completeOpenNodes ctx output nodes used s = .ok s' ∧ s'.pendingEnvelopeExtra.member "phase" = none := by
  induction nodes generalizing used s with
  | nil => exact ⟨s, rfl, hpending⟩
  | cons n nodes ih =>
    obtain ⟨i, state⟩ := n
    obtain ⟨⟨header, hkept⟩, hrest⟩ := forall_mem_cons.mp hnodes
    unfold completeOpenNodes
    split
    · exact ih hpending hrest
    rename_i position node hfound
    cases hdeferred : state.messageAllocationDeferred with
    | true =>
      obtain ⟨hmedia, hzone, hstart, hid, hcall⟩ := hkept.sound.deferred hdeferred
      obtain ⟨hnode, hmatches⟩ := mem_of_findTerminal hfound
      have hfamily := headerFamilyMatches_of_deferred hid hcall hmatches
      rw [hkept.sound.named, hends _ (hkept.waits hzone hstart) hmedia node hnode] at hfamily
      cases hfamily
    | false =>
      obtain ⟨state', s', hstart, hw, -⟩ := ensureNodeMessageStartEmitted_ok ctx i (hkept.placed hdeferred) hpending
      have hw' := hw.trans (claimItemId_slot state' s')
      rw [hstart]
      exact ih (hw'.pending hpending) (hw'.slot ▸ hrest)

theorem encodeResponsesEvent_ok {events : List UrpStreamEvent}
    (hkeeps : KeepsMessages waiting (e :: events)) (h : s.errorTerminalSent = false → SlotInv waiting s) :
    ∃ s', encodeResponsesEvent ctx s e = .ok s' ∧ (s'.errorTerminalSent = false → SlotInv (e.waiting waiting) s') := by
  obtain ⟨hphase, hextra, hends, -⟩ := hkeeps
  unfold encodeResponsesEvent
  cases herror : s.errorTerminalSent with
  | true => exact ⟨s, rfl, fun hno => by rw [herror] at hno; cases hno⟩
  | false =>
    have hinv := h herror
    rw [if_neg (by simp)]
    cases e with
    | nodeStart i header extraBody =>
      have hplain : extraBody.member "phase" = none := hextra extraBody rfl
      have hkept : SlotInv (UrpStreamEvent.waiting (.nodeStart i header extraBody) waiting) s := hinv.snoc fun _ _ _ _ => rfl
      have hstart : header ≠ .nextDownstreamEnvelopeExtra → ∃ s', startNode ctx i header extraBody s = .ok s' ∧
          (s'.errorTerminalSent = false → SlotInv (UrpStreamEvent.waiting (.nodeStart i header extraBody) waiting) s') := by
        intro hheader
        exact (startNode_ok ctx i hinv hplain hheader fun hjoins hmedia => hphase _ (if_pos ⟨hjoins, hmedia⟩)).imp
          fun _ h => ⟨h.1, fun _ => h.2⟩
      cases header with
      | nextDownstreamEnvelopeExtra =>
        exact ⟨_, rfl, fun _ => ⟨(member_merge (.inr hplain)).trans hkept.pending, hkept.unique, hkept.nodes⟩⟩
      | providerItem id protocol role itemType =>
        cases protocol with
        | responses => exact hstart (by simp)
        | _ => exact ⟨s, rfl, fun _ => hkept⟩
      | _ => exact hstart (by simp)
    | nodeDelta i delta extraBody =>
      dsimp only
      split
      · rename_i hpasses
        exact ⟨s, rfl, fun _ => hinv.snoc fun n _ header _ => by simp [UrpStreamEvent.answers, hpasses]⟩
      · exact (extendNode_ok ctx i hinv fun hmedia => hphase none (if_pos hmedia)).imp fun _ h => ⟨h.1, fun _ => h.2⟩
    | nodeDone i node extraBody =>
      dsimp only
      split
      · rename_i hforeign
        exact ⟨s, rfl, fun _ => hinv.snoc fun n _ header _ => by simp [UrpStreamEvent.answers, hforeign]⟩
      · exact (completeNode_ok ctx i hinv fun hmedia => hphase none (if_pos hmedia)).imp fun _ h => ⟨h.1, fun _ => h.2⟩
    | responseDone reason output extraBody =>
      obtain ⟨s', hs', hpending⟩ := @completeOpenNodes_ok ctx s waiting output [] s.nodeStates (hends output rfl) hinv.pending
        hinv.nodes
      dsimp only
      rw [hs']
      exact ⟨_, rfl, fun _ => ⟨hpending, fun _ hno => (by cases hno), fun _ hno => by cases hno⟩⟩
    | error _ _ _ => exact ⟨_, rfl, fun hno => by cases hno⟩
    | responseStart _ _ _ | providerControl _ _ _ _ => exact ⟨s, rfl, fun _ => hinv.snoc fun _ _ _ _ => rfl⟩

def phasedStream : List UrpStreamEvent :=
  [.nodeStart 0 (.text none .assistant none) [], .nodeStart 1 (.refusal none) [], .nodeStart 2 (.file none .assistant) [],
    .nodeDelta 1 (.refusal "no") [], .nodeDelta 0 (.text "Hi") [], .nodeDelta 2 (.file (.url "u")) [],
    .nodeStart 3 (.text none .assistant (some "commentary")) [], .nodeStart 4 (.image none .assistant) [],
    .responseDone none [.text none .assistant "Hm" (some "commentary") []] []]

/-- Each node starts at most once, its fragments come before its completion and it completes at most once. -/
def NodesOnce (events : List UrpStreamEvent) : Prop :=
  ∀ i, marks i events = [] ∨ ∃ (header : NodeHeader) (deltas : List NodeDelta) (done : Option Node),
    marks i events = .start header :: deltas.map .delta ++ done.toList.map .done

def commentaryStream : List UrpStreamEvent :=
  [.nodeStart 0 (.text none .assistant none) [], .nodeStart 1 (.text none .assistant (some "commentary")) [],
    .nodeDelta 0 (.text "Hi") [], .responseDone none [] []]

end Monoize.Urp
