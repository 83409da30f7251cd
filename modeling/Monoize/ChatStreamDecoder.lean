import Mathlib.Data.List.Sort
import Mathlib.Logic.Function.Basic
import Monoize.NodeBook

/-! The decoder of a Chat Completions event stream (`urp/stream_decode/openai_chat.rs`). The state
collects what the accumulators of the loop hold and the events sent so far. Ids the code draws at
random are read from the context, by the node they name; the receiver of the events stays. Runtime
metrics are left out. -/

namespace Monoize.Urp

def chatChoiceExtraBodyKey : String := "_monoize_chat_choice_extra"
def chatDeltaExtraBodyKey : String := "_monoize_chat_delta_extra"
def chatErrorEventExtraKey : String := "_monoize_chat_error_event"
def chatNativeFinishReasonExtraKey : String := "_monoize_chat_native_finish_reason"
def chatReasoningDetailExtraKey : String := "_monoize_chat_reasoning_detail"
def chatLegacyFunctionCallExtraKey : String := "_monoize_chat_legacy_function_call"

def isInternalExtraKey (key : String) : Bool := "_monoize_".toList.isPrefixOf key.toList

structure ChatContext where
  (responseId model reasoningId messageId : String)
  toolCallId : String → String
  providerItemId : Nat → String

structure ToolCallEntry where
  toolType : ToolCallType
  (name arguments : String)
  legacyFunctionCall : Bool

structure ChatStream where
  outputText : String := ""
  assistantMessagePhase : Option String := none
  reasoningText : String := ""
  reasoningSig : String := ""
  reasoningSummary : String := ""
  reasoningSource : Option String := none
  reasoningDetailNodes : List (Nat × Node) := []
  callOrder : List String := []
  calls : String → Option ToolCallEntry := fun _ => none
  callIdByIndex : Nat → Option String := fun _ => none
  providerItems : List (Nat × Node) := []
  responseStarted : Bool := false
  nextNodeIndex : Nat := 0
  textNodeIndex : Option Nat := none
  reasoningNodeIndex : Option Nat := none
  toolNodeIndexByCallId : String → Option Nat := fun _ => none
  finishReason : Option FinishReason := none
  protocolTerminalSeen : Bool := false
  terminalExtraBody : JsonMap := []
  deltaExtra : JsonMap := []
  events : List UrpStreamEvent := []

namespace ChatStream

def sendEvent (s : ChatStream) (e : UrpStreamEvent) : ChatStream := { s with events := s.events ++ [e] }

def ensureResponseStartedWithExtra (ctx : ChatContext) (extra : JsonMap) (s : ChatStream) : ChatStream :=
  if s.responseStarted then s
  else { s.sendEvent (.responseStart ctx.responseId ctx.model extra) with responseStarted := true }

def ensureResponseStarted (ctx : ChatContext) (s : ChatStream) : ChatStream :=
  s.ensureResponseStartedWithExtra ctx []

def startNode (header : NodeHeader) (extra : JsonMap) (s : ChatStream) : ChatStream :=
  { s.sendEvent (.nodeStart s.nextNodeIndex header extra) with nextNodeIndex := s.nextNodeIndex + 1 }

def sendNodeDelta (s : ChatStream) (i : Nat) (delta : NodeDelta) (extra : JsonMap) : ChatStream :=
  s.sendEvent (.nodeDelta i delta extra)

end ChatStream

open ChatStream

inductive ChatSlot
  | text
  | reasoning

variable (ctx : ChatContext) (s : ChatStream) (delta : JsonValue)

def ChatStream.slot : ChatSlot → Option Nat
  | .text => s.textNodeIndex
  | .reasoning => s.reasoningNodeIndex

def ChatStream.setSlot (i : Nat) : ChatSlot → ChatStream
  | .text => { s with textNodeIndex := some i }
  | .reasoning => { s with reasoningNodeIndex := some i }

def ensureNodeStarted (slot : ChatSlot) (header : NodeHeader) (s : ChatStream) : Nat × ChatStream :=
  match s.slot slot with
  | some i => (i, s)
  | none =>
    let s := s.ensureResponseStarted ctx
    (s.nextNodeIndex, (s.setSlot s.nextNodeIndex slot).startNode header [])

def chatDeltaEventExtra (deltaExtra : JsonMap) : JsonMap :=
  let choiceExtra := deltaExtra.member chatChoiceExtraBodyKey
  let deltaExtra := deltaExtra.remove chatChoiceExtraBodyKey
  let eventExtra : JsonMap := if deltaExtra = [] then [] else [(chatDeltaExtraBodyKey, .object deltaExtra)]
  match choiceExtra with
  | some extra => eventExtra.insert chatChoiceExtraBodyKey extra
  | none => eventExtra

def processTextDelta (text : String) (s : ChatStream) : ChatStream :=
  if text = "" then s
  else
    let (i, s) := ensureNodeStarted ctx .text (.text none .assistant s.assistantMessagePhase) s
    { s with outputText := s.outputText ++ text, deltaExtra := [] }.sendNodeDelta i (.text text)
      (chatDeltaEventExtra s.deltaExtra)

def resolveReasoningSource (reasoningSource source : Option String) : Option String :=
  match source.filter (fun source => source ≠ "" ∧ source ≠ "openrouter") with
  | some source => some source
  | none => reasoningSource

/-- A fragment of the scalar reasoning node: `append` adds it to its accumulator and `delta` is the
event that carries it, with the source known by then. -/
def processReasoningDelta (source : Option String) (append : ChatStream → ChatStream)
    (delta : Option String → NodeDelta) (s : ChatStream) : ChatStream :=
  let source := resolveReasoningSource s.reasoningSource source
  let eventExtra := chatDeltaEventExtra s.deltaExtra
  let (i, s) := ensureNodeStarted ctx .reasoning (.reasoning none) { s with reasoningSource := source, deltaExtra := [] }
  (append s).sendNodeDelta i (delta source) eventExtra

def processReasoningSummaryDelta (summary source : Option String) (s : ChatStream) : ChatStream :=
  match summary.filter (· ≠ "") with
  | none => s
  | some summary =>
    processReasoningDelta ctx source (fun s => { s with reasoningSummary := s.reasoningSummary ++ summary })
      (fun source => .reasoning none none (some summary) source) s

def processReasoningTextDelta (content source : Option String) (s : ChatStream) : ChatStream :=
  match content.filter (· ≠ "") with
  | none => s
  | some content =>
    processReasoningDelta ctx source (fun s => { s with reasoningText := s.reasoningText ++ content })
      (fun source => .reasoning (some content) none none source) s

def processReasoningEncryptedDelta (encrypted : Option JsonValue) (source : Option String)
    (s : ChatStream) : ChatStream :=
  match encrypted.filter (fun v => ¬ v.isNull ∧ v.plainText ≠ "") with
  | none => s
  | some encrypted =>
    processReasoningDelta ctx source (fun s => { s with reasoningSig := s.reasoningSig ++ encrypted.plainText })
      (fun source => .reasoning none (some encrypted) none source) s

def chatReasoningNodeFromDetail (detail : JsonMap) : Option Node := do
  let detailType ← detail.strMember "type"
  if "reasoning.".toList.isPrefixOf detailType.toList then
    let id := (detail.strMember "id").filter (· ≠ "")
    let source := (detail.strMember "format").filter (· ≠ "")
    let content := if detailType = "reasoning.text" then detail.strMember "text" else none
    let summary := if detailType = "reasoning.summary" then detail.strMember "summary" else none
    let encrypted :=
      if detailType = "reasoning.encrypted" then (detail.member "data").filter (fun v => ¬ v.isNull) else none
    some (.reasoning id content encrypted summary source
      [(chatReasoningDetailExtraKey, .object (detail.filter fun e => ¬ isInternalExtraKey e.1))])
  else none

def processReasoningDetailDelta (detail : JsonValue) (s : ChatStream) : ChatStream :=
  match detail.asObject.bind chatReasoningNodeFromDetail with
  | some (.reasoning id content encrypted summary source extra) =>
    let s := s.ensureResponseStarted ctx
    let i := s.nextNodeIndex
    let s := s.startNode (.reasoning id) extra
    let s := { s with deltaExtra := [] }.sendNodeDelta i (.reasoning content encrypted summary source)
      (extra.extend (chatDeltaEventExtra s.deltaExtra))
    { s with reasoningDetailNodes := s.reasoningDetailNodes ++ [(i, .reasoning id content encrypted summary source extra)] }
  | _ => s

def parseToolCallArgumentsValue (obj : JsonMap) : Option JsonValue :=
  obj.member "arguments" <|> obj.member "input" <|> obj.member "args" <|>
    (((obj.member "function").bind JsonValue.asObject).bind fun function =>
      function.member "arguments" <|> function.member "input" <|> function.member "args") <|>
    (((obj.member "custom").bind JsonValue.asObject).bind fun custom => custom.member "input")

def toolCallArgumentsDeltaText (tcObj : JsonMap) : Option String := do
  let value ← parseToolCallArgumentsValue tcObj
  if tcObj.strMember "type" = some "tool_use" ∧ value = .object [] then none
  else some value.plainText |>.filter (· ≠ "")

def chatToolCallType (tcObj : JsonMap) : ToolCallType :=
  if tcObj.strMember "type" = some "custom" ∨ tcObj.strMember "type" = some "custom_tool_call" ∨
      (tcObj.member "custom").isSome then .custom
  else .function

def toolCallName (tcObj : JsonMap) : String :=
  (tcObj.strMember "name" <|> (tcObj.member "function").bind (·.getStr "name") <|>
    (tcObj.member "custom").bind (·.getStr "name")).getD ""

def toolCallOwnId (tcObj : JsonMap) : String :=
  ((tcObj.member "id" <|> tcObj.member "call_id").bind JsonValue.asStr).getD ""

def toolCallIndex (tcObj : JsonMap) : Option Nat := (tcObj.member "index").bind JsonValue.asU64

/-- The call a fragment belongs to: its own id, else the id known for its index, else for the first
fragment of a chunk the last call, else the call at its position. -/
def ChatStream.toolCallIdOf (tcObj : JsonMap) (toolCallPos : Nat) : String :=
  let callId := toolCallOwnId tcObj
  let callId := if callId = "" then ((toolCallIndex tcObj).bind s.callIdByIndex).getD "" else callId
  let callId := if callId = "" ∧ toolCallPos = 0 then s.callOrder.getLast?.getD "" else callId
  if callId = "" then (s.callOrder[toolCallPos]?).getD "" else callId

def ToolCallEntry.update (entry : ToolCallEntry) (toolType : ToolCallType) (name arguments : String) (legacy : Bool) :
    ToolCallEntry where
  toolType := if toolType = .custom then .custom else entry.toolType
  name := if name ≠ "" ∧ entry.name = "" then name else entry.name
  arguments := entry.arguments ++ arguments
  legacyFunctionCall := entry.legacyFunctionCall || legacy

def noteCallIndex (index : Option Nat) (callId : String) (s : ChatStream) : ChatStream :=
  match index with
  | some index => { s with callIdByIndex := Function.update s.callIdByIndex index (some callId) }
  | none => s

def ensureCall (callId : String) (toolType : ToolCallType) (name : String) (legacy : Bool) (s : ChatStream) : ChatStream :=
  if (s.calls callId).isSome then s
  else
    { s with
      callOrder := s.callOrder ++ [callId]
      calls := Function.update s.calls callId (some ⟨toolType, name, "", legacy⟩) }

def ensureToolNode (callId : String) (toolType : ToolCallType) (name : String) (legacy : Bool) (s : ChatStream) :
    ChatStream :=
  match s.toolNodeIndexByCallId callId with
  | some _ => s
  | none =>
    let extra := chatDeltaEventExtra s.deltaExtra
    let extra := if legacy then extra.insert chatLegacyFunctionCallExtraKey (.bool true) else extra
    { s with
      toolNodeIndexByCallId := Function.update s.toolNodeIndexByCallId callId (some s.nextNodeIndex)
      deltaExtra := [] }.startNode (.toolCall none toolType callId name) extra

def extendCall (callId : String) (toolType : ToolCallType) (name argsDelta : String) (legacy : Bool) (s : ChatStream) :
    ChatStream :=
  match s.toolNodeIndexByCallId callId, s.calls callId with
  | some i, some entry =>
    let s := { s with calls := Function.update s.calls callId (some (entry.update toolType name argsDelta legacy)) }
    if argsDelta = "" then s
    else { s with deltaExtra := [] }.sendNodeDelta i (.toolCallArguments argsDelta) (chatDeltaEventExtra s.deltaExtra)
  | _, _ => s

def processToolCallDelta (rawToolCall : JsonValue) (toolCallPos : Nat) (legacy : Bool) (s : ChatStream) : ChatStream :=
  match rawToolCall.asObject with
  | none => s
  | some tcObj =>
    let callId := s.toolCallIdOf tcObj toolCallPos
    if callId = "" then s
    else
      let toolType := chatToolCallType tcObj
      let name := toolCallName tcObj
      let s := noteCallIndex (toolCallIndex tcObj) callId s
      let s := (ensureCall callId toolType name legacy s).ensureResponseStarted ctx
      let s := ensureToolNode callId toolType name legacy s
      extendCall callId toolType name ((toolCallArgumentsDeltaText tcObj).getD "") legacy s

def legacyFunctionCallAsToolCall (functionCall : JsonValue) : Option JsonValue := do
  let function ← functionCall.asObject
  let function := function.filter fun e => ¬ isInternalExtraKey e.1
  if function = [] then none
  else
    let normalized : JsonMap := [("function", .object function), ("index", .int 0), ("type", .string "function")]
    some (.object (match (JsonMap.strMember function "name").filter (· ≠ "") with
      | some name => normalized.insert "id" (.string ("legacy_function:" ++ name))
      | none => normalized))

def processProviderItemBlock (block : JsonMap) (s : ChatStream) : ChatStream :=
  let s := s.ensureResponseStarted ctx
  let i := s.nextNodeIndex
  let id := block.strMember "id" <|> some (ctx.providerItemId i)
  let itemType := (block.strMember "type").getD ""
  let s := { s with deltaExtra := [] }.startNode (.providerItem id .chatCompletion .assistant itemType)
    (chatDeltaEventExtra s.deltaExtra)
  { s with providerItems := s.providerItems ++
    [(i, .providerItem id .chatCompletion .assistant itemType (.object block) [])] }

def chatStreamBlockIsToolCallLike (block : JsonMap) : Bool :=
  (match block.strMember "type" with
    | some itemType => ["tool_call", "function_call", "tool_use", "custom_tool_call", "custom"].contains itemType
    | none => false) || (block.member "function").isSome || (block.member "custom").isSome ||
    (block.member "call_id").isSome || (block.member "input").isSome

def extractReasoningParts (item : JsonValue) : String × String × String :=
  let contentText := String.join ((((item.get "content").bind JsonValue.asArray).getD []).filterMap fun part =>
    if part.getStr "type" = some "reasoning_text" then part.getStr "text" else none)
  let text := if contentText = "" then (item.getStr "text").getD "" else contentText
  let summaryText := String.join ((((item.get "summary").bind JsonValue.asArray).getD []).filterMap fun part =>
    if part.getStr "type" = some "summary_text" then part.getStr "text" else none)
  let signature := (item.getStr "encrypted_content").getD ""
  (text, summaryText, if signature = "" then (item.getStr "signature").getD "" else signature)

structure ChatReasoningContentBlock where
  (content summary : Option String)
  encrypted : Option JsonValue
  format : Option String

def extractChatReasoningContentBlock (block : JsonValue) : Option ChatReasoningContentBlock :=
  if block.getStr "type" = some "reasoning" then
    let (text, summary, signature) := extractReasoningParts block
    if text = "" ∧ summary = "" ∧ signature = "" then none
    else some
      { content := if text = "" then none else some text
        summary := if summary = "" then none else some summary
        encrypted := if signature = "" then none else some (.string signature)
        format := (block.getStr "format").filter (· ≠ "") }
  else none

def isTextBlock (block : JsonMap) : Bool :=
  block.strMember "type" = some "text" || block.strMember "type" = some "output_text"

def processContentBlock (block : JsonValue) (contentPos : Nat) (s : ChatStream) : ChatStream :=
  match block with
  | .string text => processTextDelta ctx text s
  | .object blockObj =>
    match extractChatReasoningContentBlock block with
    | some reasoning =>
      let s := processReasoningSummaryDelta ctx reasoning.summary reasoning.format s
      let s := processReasoningTextDelta ctx reasoning.content reasoning.format s
      processReasoningEncryptedDelta ctx reasoning.encrypted reasoning.format s
    | none =>
      let text := if isTextBlock blockObj then JsonMap.strMember blockObj "text" else none
      let s := match text with
        | some text => processTextDelta ctx text s
        | none => s
      let s := processToolCallDelta ctx block contentPos false s
      if text.isSome || chatStreamBlockIsToolCallLike blockObj then s else processProviderItemBlock ctx blockObj s
  | _ => s

structure ChatReasoningDeltaChunk where
  text : String
  format : Option String

def extractChatReasoningDeltaChunks :
    List ChatReasoningDeltaChunk × List ChatReasoningDeltaChunk × List ChatReasoningDeltaChunk :=
  let details := (((delta.get "reasoning_details").bind JsonValue.asArray).getD []).filterMap JsonValue.asObject
  let format (obj : JsonMap) : Option String := (obj.strMember "format").filter (· ≠ "")
  let chunk (detailType : String) (payload : JsonMap → Option String) : List ChatReasoningDeltaChunk :=
    details.filterMap fun obj =>
      if (obj.strMember "type").getD "" = detailType then
        ((payload obj).filter (· ≠ "")).map fun text => ⟨text, format obj⟩
      else none
  let scalar (key : String) : List ChatReasoningDeltaChunk :=
    ((delta.getStr key).filter (· ≠ "")).toList.map fun text => ⟨text, none⟩
  let textParts := chunk "reasoning.text" (JsonMap.strMember · "text")
  let textParts := if textParts.isEmpty then scalar "reasoning" else textParts
  let sigParts := chunk "reasoning.encrypted" fun obj =>
    ((obj.member "data").filter (fun v => ¬ v.isNull)).map JsonValue.plainText
  (textParts ++ scalar "reasoning_content", chunk "reasoning.summary" (JsonMap.strMember · "summary"),
    sigParts ++ scalar "reasoning_opaque")

def chatDeltaKnownKeys : List String :=
  ["role", "content", "reasoning", "reasoning_content", "reasoning_details", "reasoning_opaque", "tool_calls",
    "function_call", "refusal", "phase"]

def chatDeltaExtra : JsonMap :=
  (delta.asObject.getD []).filter fun e => ¬ isInternalExtraKey e.1 ∧ ¬ chatDeltaKnownKeys.contains e.1

def chatChoiceExtra (choice : JsonMap) : JsonMap :=
  choice.filter fun e => ¬ isInternalExtraKey e.1 ∧ ¬ ["index", "delta", "message", "finish_reason"].contains e.1

def chatDeltaHasPayload : Bool :=
  ((delta.get "content").any fun v => ¬ v.isNull) ||
    (((delta.get "reasoning_details").bind JsonValue.asArray).any fun details => ¬ details.isEmpty) ||
    (["reasoning", "reasoning_content", "reasoning_opaque", "refusal"].any fun field =>
      (delta.getStr field).any (· ≠ "")) ||
    (((delta.get "tool_calls").bind JsonValue.asArray).any fun calls => ¬ calls.isEmpty) ||
    (((delta.get "function_call").bind JsonValue.asObject).any fun call => ¬ call.isEmpty)

def chatChoice (data : JsonValue) : Option JsonMap :=
  ((((data.get "choices").bind JsonValue.asArray).bind List.head?).bind JsonValue.asObject)

def chatDelta (data : JsonValue) : JsonValue :=
  (((((data.get "choices").bind JsonValue.asArray).bind List.head?).bind (·.get "delta"))).getD .null

def parseFinishReason (reason : String) : FinishReason :=
  if reason = "stop" then .stop
  else if reason = "length" then .length
  else if reason = "tool_calls" ∨ reason = "function_call" then .toolCalls
  else if reason = "content_filter" then .contentFilter
  else .other

def chatFinishReason (data : JsonValue) : Option String :=
  ((chatChoice data).bind (JsonMap.strMember · "finish_reason")).filter (· ≠ "")

def chatError (data : JsonValue) : Option JsonValue :=
  (data.get "error").filter (fun e => ¬ e.isNull) <|>
    ((chatChoice data).bind (JsonMap.member · "error")).filter (fun e => ¬ e.isNull)

def jsonScalarString : JsonValue → Option String
  | .string value => if value = "" then none else some value
  | .int n => some (toString n)
  | .decimal text => some text
  | _ => none

def chatErrorScalar (error : JsonValue) (directKey metadataKey : String) : Option String :=
  (error.get directKey).bind jsonScalarString <|>
    (((error.get "metadata").bind JsonValue.asObject).bind (JsonMap.member · metadataKey)).bind jsonScalarString

def chatErrorCodeAndMessage (error : JsonValue) : Option String × String :=
  (chatErrorScalar error "code" "provider_code",
    ((error.getStr "message" <|> error.asStr).filter (· ≠ "")).getD "upstream Chat Completions error")

def emitChatTerminalError (fallbackCode fallbackMessage : String) (originalEvent error : Option JsonValue)
    (s : ChatStream) : ChatStream :=
  let code := (error.bind (chatErrorScalar · "code" "provider_code")).getD fallbackCode
  let message := ((error.bind (·.getStr "message") <|> error.bind JsonValue.asStr).filter (· ≠ "")).getD fallbackMessage
  let extra : JsonMap := match originalEvent with
    | some event => [(chatErrorEventExtraKey, event)]
    | none => []
  let extra := match error with
    | some error => extra.insert "error" error
    | none => extra
  let extra := match error.bind (chatErrorScalar · "type" "error_type") with
    | some errorType => extra.insert "type" (.string errorType)
    | none => extra
  let extra := match (error.bind (·.getStr "param")).filter (· ≠ "") with
    | some param => extra.insert "param" (.string param)
    | none => extra
  s.sendEvent (.error (some code) message extra)

def snapshotSuffix (streamed snapshot : String) : Option String :=
  ((streamed.toList.isPrefixOf? snapshot.toList).map String.ofList).filter (· ≠ "")

def applyTerminalOpaqueSnapshot (current snapshot : String) : Option String × String :=
  match snapshotSuffix current snapshot with
  | some suffix => (some suffix, current)
  | none => (none, snapshot)

def reasoningDetailRaw : Node → Option JsonMap
  | .reasoning _ _ _ _ _ extra => (extra.member chatReasoningDetailExtraKey).bind JsonValue.asObject
  | _ => none

def reasoningDetailPayloadKey (detailType : String) : Option String :=
  if detailType = "reasoning.text" then some "text"
  else if detailType = "reasoning.summary" then some "summary"
  else if detailType = "reasoning.encrypted" then some "data"
  else none

def detailPayloadsCompatible : Option JsonValue → Option JsonValue → Bool
  | some (.string existing), some (.string terminal) =>
    terminal.toList.isPrefixOf existing.toList || existing.toList.isPrefixOf terminal.toList
  | some existing, some terminal => existing = terminal
  | _, _ => true

def reasoningDetailMatches (existing : Node) (terminal : JsonMap) : Bool :=
  match reasoningDetailRaw existing with
  | none => false
  | some raw =>
    if raw = terminal then true
    else if raw.strMember "type" ≠ terminal.strMember "type" then false
    else if ["id", "index", "tool_call_id"].any (fun key => raw.member key ≠ terminal.member key) then false
    else if (raw.member "format").isSome ∧ (terminal.member "format").isSome ∧
        raw.member "format" ≠ terminal.member "format" then false
    else match (terminal.strMember "type").bind reasoningDetailPayloadKey with
      | none => false
      | some payloadKey =>
        payloadKey = "data" || detailPayloadsCompatible (raw.member payloadKey) (terminal.member payloadKey)

def mergedDetail (raw terminal : JsonMap) : JsonMap :=
  raw.extend (terminal.filter fun e => ¬ isInternalExtraKey e.1)

def reasoningDetailCompletion (existing : Node) (terminal : JsonMap) : Option (Node × NodeDelta × JsonMap) := do
  let raw ← reasoningDetailRaw existing
  let detailType ← terminal.strMember "type"
  let payloadKey ← reasoningDetailPayloadKey detailType
  if payloadKey = "data" then none
  else
    let merged := mergedDetail raw terminal
    let node ← chatReasoningNodeFromDetail merged
    let suffix ← snapshotSuffix ((raw.strMember payloadKey).getD "") ((merged.strMember payloadKey).getD "")
    let source := terminal.strMember "format"
    let delta : NodeDelta :=
      if payloadKey = "text" then .reasoning (some suffix) none none source else .reasoning none none (some suffix) source
    let deltaDetail := JsonMap.insert (terminal.filter fun e => ¬ isInternalExtraKey e.1) payloadKey (.string suffix)
    some (node, delta, [(chatReasoningDetailExtraKey, .object deltaDetail)])

/-- The first node of the first `existingLen` that no earlier entry of the snapshot was matched with. -/
def matchingDetail (existingLen : Nat) (matched : List Nat) (detail : JsonMap) (nodes : List (Nat × Node)) : Option Nat :=
  (List.range existingLen).find? fun position =>
    ¬ matched.contains position ∧ (nodes[position]?).any fun e => reasoningDetailMatches e.2 detail

def completeDetail (position : Nat) (detail : JsonMap) (s : ChatStream) : ChatStream :=
  match s.reasoningDetailNodes[position]? with
  | none => s
  | some (i, existing) =>
    match reasoningDetailCompletion existing detail with
    | some (merged, delta, eventExtra) =>
      let eventExtra := eventExtra.extend (chatDeltaEventExtra s.deltaExtra)
      { s with
        deltaExtra := []
        reasoningDetailNodes := s.reasoningDetailNodes.set position (i, merged) }.sendNodeDelta i delta eventExtra
    | none =>
      match chatReasoningNodeFromDetail (mergedDetail ((reasoningDetailRaw existing).getD []) detail) with
      | some merged => { s with reasoningDetailNodes := s.reasoningDetailNodes.set position (i, merged) }
      | none => s

def processTerminalReasoningDetail (existingLen : Nat) (acc : List Nat × ChatStream)
    (detail : JsonValue) : List Nat × ChatStream :=
  match detail.asObject with
  | none => acc
  | some detailObj =>
    match matchingDetail existingLen acc.1 detailObj acc.2.reasoningDetailNodes with
    | none => (acc.1, processReasoningDetailDelta ctx detail acc.2)
    | some position => (position :: acc.1, completeDetail position detailObj acc.2)

def processTerminalReasoningDetails (details : List JsonValue) (s : ChatStream) : ChatStream :=
  (details.foldl (processTerminalReasoningDetail ctx s.reasoningDetailNodes.length) ([], s)).2

def ChatStream.terminalToolCallId (toolCall : JsonMap) (toolCallPos : Nat) : Option String :=
  ((toolCall.member "id" <|> toolCall.member "call_id").bind JsonValue.asStr).filter (· ≠ "") <|>
    (toolCallIndex toolCall).bind s.callIdByIndex <|> s.callOrder[toolCallPos]?

def toolCallWithArgumentsDelta (raw : JsonValue) (arguments : String) : JsonValue :=
  match raw.asObject with
  | none => raw
  | some obj =>
    .object (match (obj.member "function").bind JsonValue.asObject with
      | some function => obj.insert "function" (.object (function.insert "arguments" (.string arguments)))
      | none => match (obj.member "custom").bind JsonValue.asObject with
        | some custom => obj.insert "custom" (.object (custom.insert "input" (.string arguments)))
        | none => JsonMap.insert (obj.remove "input") "arguments" (.string arguments))

def processTerminalToolCallSnapshot (rawToolCall : JsonValue) (toolCallPos : Nat) (legacy : Bool)
    (s : ChatStream) : ChatStream :=
  match rawToolCall.asObject with
  | none => s
  | some toolCall =>
    match s.terminalToolCallId toolCall toolCallPos with
    | none => s
    | some callId =>
      match s.calls callId with
      | none => processToolCallDelta ctx rawToolCall toolCallPos legacy s
      | some entry =>
        let terminalArguments := (toolCallArgumentsDeltaText toolCall).getD ""
        let named := entry.update (chatToolCallType toolCall) (toolCallName toolCall) "" legacy
        let s := { s with calls := Function.update s.calls callId (some named) }
        match snapshotSuffix entry.arguments terminalArguments with
        | none => s
        | some suffix =>
          processToolCallDelta ctx (toolCallWithArgumentsDelta rawToolCall suffix) toolCallPos legacy s

def processSnapshotText (snapshotText : String) (s : ChatStream) : ChatStream :=
  match snapshotSuffix s.outputText snapshotText with
  | some suffix => processTextDelta ctx suffix s
  | none => s

def processSnapshotBlock (acc : String × ChatStream) (block : JsonValue × Nat) : String × ChatStream :=
  match block.1 with
  | .string text => (acc.1 ++ text, processSnapshotText ctx (acc.1 ++ text) acc.2)
  | .object blockObj =>
    match if isTextBlock blockObj then JsonMap.strMember blockObj "text" else none with
    | some text => (acc.1 ++ text, processSnapshotText ctx (acc.1 ++ text) acc.2)
    | none =>
      if chatStreamBlockIsToolCallLike blockObj then
        (acc.1, processTerminalToolCallSnapshot ctx block.1 block.2 false acc.2)
      else if acc.2.providerItems.any (fun e => match e.2 with
          | .providerItem _ _ _ _ body _ => body = block.1
          | _ => false) then acc
      else (acc.1, processProviderItemBlock ctx blockObj acc.2)
  | _ => acc

def processSnapshotReasoning (message : JsonMap) (s : ChatStream) : ChatStream :=
  match ((message.member "reasoning_details").bind JsonValue.asArray).filter (fun details => ¬ details.isEmpty) with
  | some details => processTerminalReasoningDetails ctx details s
  | none =>
    if s.reasoningDetailNodes.isEmpty then
      let snapshot := (message.strMember "reasoning").filter (· ≠ "") <|>
        (message.strMember "reasoning_content").filter (· ≠ "")
      let s := match snapshot.bind (snapshotSuffix s.reasoningText) with
        | some suffix => processReasoningTextDelta ctx (some suffix) none s
        | none => s
      match (message.strMember "reasoning_opaque").filter (· ≠ "") with
      | none => s
      | some snapshot =>
        let (suffix, sig) := applyTerminalOpaqueSnapshot s.reasoningSig snapshot
        let s := { s with reasoningSig := sig }
        match suffix with
        | some suffix => processReasoningEncryptedDelta ctx (some (.string suffix)) none s
        | none => s
    else s

def processSnapshotContent (message : JsonMap) (s : ChatStream) : ChatStream :=
  match message.member "content" with
  | some (.string text) => processSnapshotText ctx text s
  | some (.array blocks) => (blocks.zipIdx.foldl (processSnapshotBlock ctx) ("", s)).2
  | _ => s

def processSnapshotToolCalls (message : JsonMap) (s : ChatStream) : ChatStream :=
  let toolCalls := ((message.member "tool_calls").bind JsonValue.asArray).getD []
  let s := toolCalls.zipIdx.foldl (fun s call => processTerminalToolCallSnapshot ctx call.1 call.2 false s) s
  match (message.member "function_call").bind legacyFunctionCallAsToolCall with
  | some functionCall => processTerminalToolCallSnapshot ctx functionCall 0 true s
  | none => s

def processTerminalMessageSnapshot (message : JsonMap) (s : ChatStream) : ChatStream :=
  let messageExtra := message.filter fun e => ¬ chatDeltaKnownKeys.contains e.1 ∧ ¬ isInternalExtraKey e.1
  let s := { s with
    assistantMessagePhase := s.assistantMessagePhase <|> message.strMember "phase"
    deltaExtra := JsonMap.extend s.deltaExtra messageExtra }
  processSnapshotToolCalls ctx message (processSnapshotContent ctx message (processSnapshotReasoning ctx message s))

def recordFinishReason (data : JsonValue) (reason : String) (s : ChatStream) : ChatStream :=
  let choiceExtra := chatChoiceExtra ((chatChoice data).getD [])
  let extra := JsonMap.insert s.terminalExtraBody chatNativeFinishReasonExtraKey (.string reason)
  { s with
    protocolTerminalSeen := true
    finishReason := some (parseFinishReason reason)
    terminalExtraBody := if choiceExtra = [] then extra else extra.insert chatChoiceExtraBodyKey (.object choiceExtra) }

def noteDeltaExtra (data : JsonValue) (s : ChatStream) : ChatStream :=
  let deltaExtra := JsonMap.extend s.deltaExtra (chatDeltaExtra (chatDelta data))
  let choiceExtra := if s.protocolTerminalSeen then [] else chatChoiceExtra ((chatChoice data).getD [])
  { s with
    deltaExtra :=
      if choiceExtra = [] then deltaExtra else deltaExtra.insert chatChoiceExtraBodyKey (.object choiceExtra)
    assistantMessagePhase := s.assistantMessagePhase <|> (chatDelta data).getStr "phase" }

def startOnAssistantRole (s : ChatStream) : ChatStream :=
  if delta.getStr "role" = some "assistant" then
    if ¬ s.responseStarted ∧ ¬ chatDeltaHasPayload delta ∧ s.deltaExtra ≠ [] then
      { s with deltaExtra := [] }.ensureResponseStartedWithExtra ctx (chatDeltaEventExtra s.deltaExtra)
    else s.ensureResponseStarted ctx
  else s

def processDeltaContent (s : ChatStream) : ChatStream :=
  match delta.get "content" with
  | some (.string text) => processTextDelta ctx text s
  | some (.array blocks) => blocks.zipIdx.foldl (fun s block => processContentBlock ctx block.1 block.2 s) s
  | _ => s

def processDeltaReasoning (s : ChatStream) : ChatStream :=
  match ((delta.get "reasoning_details").bind JsonValue.asArray).filter (fun details => ¬ details.isEmpty) with
  | some details => details.foldl (fun s detail => processReasoningDetailDelta ctx detail s) s
  | none =>
    let (texts, summaries, sigs) := extractChatReasoningDeltaChunks delta
    let s := summaries.foldl (fun s chunk => processReasoningSummaryDelta ctx (some chunk.text) chunk.format s) s
    let s := texts.foldl (fun s chunk => processReasoningTextDelta ctx (some chunk.text) chunk.format s) s
    sigs.foldl (fun s chunk => processReasoningEncryptedDelta ctx (some (.string chunk.text)) chunk.format s) s

def deltaToolCalls : List JsonValue := ((delta.get "tool_calls").bind JsonValue.asArray).getD []

def processDeltaToolCalls (s : ChatStream) : ChatStream :=
  let s := (deltaToolCalls delta).zipIdx.foldl (fun s call => processToolCallDelta ctx call.1 call.2 false s) s
  match (delta.get "function_call").bind legacyFunctionCallAsToolCall with
  | some functionCall => processToolCallDelta ctx functionCall 0 true s
  | none => s

def processDelta (s : ChatStream) : ChatStream :=
  processDeltaToolCalls ctx delta (processDeltaReasoning ctx delta
    (processDeltaContent ctx delta (startOnAssistantRole ctx delta s)))

def processChunk (data : JsonValue) (s : ChatStream) : Except ChatStream ChatStream :=
  match chatError data with
  | some error =>
    let (code, message) := chatErrorCodeAndMessage error
    .error (emitChatTerminalError (code.getD "upstream_chat_error") message (some data) (some error) s)
  | none =>
    if chatFinishReason data = some "error" then
      .error (emitChatTerminalError "upstream_chat_error"
        "upstream Chat Completions stream terminated with finish_reason=error" (some data) none s)
    else
      let s := match chatFinishReason data with
        | some reason => recordFinishReason data reason s
        | none => s
      let s := processDelta ctx (chatDelta data) (noteDeltaExtra data s)
      match ((chatChoice data).bind (JsonMap.member · "message")).bind JsonValue.asObject with
      | some message => .ok (processTerminalMessageSnapshot ctx message s)
      | none => .ok s

def toolCallNode (callId : String) (entry : ToolCallEntry) : Node :=
  .toolCall (some (ctx.toolCallId callId)) entry.toolType callId entry.name entry.arguments
    (if entry.legacyFunctionCall then [(chatLegacyFunctionCallExtraKey, .bool true)] else [])

def ChatStream.toolNode? (callId : String) : Option (Nat × Node) := do
  let i ← s.toolNodeIndexByCallId callId
  let entry ← s.calls callId
  some (i, toolCallNode ctx callId entry)

def ChatStream.toolNodes : List (Nat × Node) :=
  s.callOrder.filterMap (s.toolNode? ctx)

def ChatStream.reasoningNode : Node :=
  .reasoning (some ctx.reasoningId) (if s.reasoningText = "" then none else some s.reasoningText)
    (if s.reasoningSig = "" then none else some (.string s.reasoningSig))
    (if s.reasoningSummary = "" then none else some s.reasoningSummary) s.reasoningSource []

def ChatStream.textNode : Node :=
  .text (some ctx.messageId) .assistant s.outputText s.assistantMessagePhase []

def ChatStream.unsortedNodes : List (Nat × Node) :=
  s.reasoningNodeIndex.toList.map (·, s.reasoningNode ctx) ++ s.reasoningDetailNodes ++
    s.textNodeIndex.toList.map (·, s.textNode ctx) ++ s.toolNodes ctx ++ s.providerItems

def ChatStream.sortedNodes : List (Nat × Node) :=
  (s.unsortedNodes ctx).insertionSort fun a b => a.1 ≤ b.1

def finishChatStream : ChatStream :=
  if s.protocolTerminalSeen then
    let extra := if s.deltaExtra = [] then s.terminalExtraBody
      else JsonMap.insert s.terminalExtraBody chatDeltaExtraBodyKey (.object s.deltaExtra)
    let s := if s.responseStarted ∨ s.outputText ≠ "" ∨ s.reasoningText ≠ "" ∨ s.reasoningSummary ≠ "" ∨
        s.reasoningDetailNodes ≠ [] ∨ s.callOrder ≠ [] then s.ensureResponseStarted ctx else s
    let nodes := s.sortedNodes ctx
    let s := nodes.foldl (fun s e => s.sendEvent (.nodeDone e.1 e.2 [])) s
    s.sendEvent (.responseDone s.finishReason (nodes.map (·.2)) extra)
  else
    emitChatTerminalError "upstream_stream_missing_terminal"
      "upstream Chat Completions stream ended before a terminal finish_reason" none none s

/-- What the event stream reader hands to the loop, the end of the stream being the end of the list. -/
inductive ChatSseEvent
  | idle
  | undecodable (message : String)
  | done
  | invalidJson (message data : String)
  | chunk (data : JsonValue)

def streamChat (ctx : ChatContext) : List ChatSseEvent → ChatStream → ChatStream
  | [], s => finishChatStream ctx s
  | .idle :: _, s => s
  | .undecodable message :: _, s => emitChatTerminalError "upstream_stream_decode_failed" message none none s
  | .done :: _, s =>
    if s.protocolTerminalSeen then finishChatStream ctx s
    else emitChatTerminalError "upstream_stream_missing_terminal"
      "upstream Chat Completions stream sent [DONE] before a terminal finish_reason" none none s
  | .invalidJson message data :: _, s =>
    emitChatTerminalError "invalid_upstream_sse_json" ("invalid Chat Completions SSE JSON: " ++ message) none
      (some (.string data)) s
  | .chunk data :: rest, s =>
    match processChunk ctx data s with
    | .ok s => streamChat ctx rest s
    | .error s => s

def streamChatToUrpEvents (sse : List ChatSseEvent) : List UrpStreamEvent :=
  (streamChat ctx sse {}).events

end Monoize.Urp
