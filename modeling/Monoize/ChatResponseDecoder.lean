import Monoize.ChatStreamDecoder

/-! The decoder of a whole Chat Completions response (`urp/decode/openai_chat.rs`). The readers of
image, file and audio blocks are shared with other protocols and taken as parameters; token usage is
left out. -/

namespace Monoize.Urp

def chatReasoningSurfaceExtraKey : String := "_monoize_chat_reasoning_surface"
def chatMessageAudioExtraKey : String := "_monoize_chat_message_audio"

structure UrpResponse where
  (id model : String)
  createdAt : Option Int
  output : List Node
  finishReason : Option FinishReason
  extraBody : JsonMap

/-- The readers of content blocks that are media, and the id drawn for a block nobody reads. -/
structure ChatBlockReaders where
  (image file audio : JsonMap → Option Node)
  providerItemId : JsonMap → String

def splitExtra (obj : JsonMap) (known : List String) : JsonMap :=
  obj.filter fun e => ¬ isInternalExtraKey e.1 ∧ ¬ known.contains e.1

def textPartWithPhase (content : String) (phase : Option String) (extra : JsonMap) : Node :=
  match phase with
  | some phase => .text none .assistant content (some phase) (extra.insert "phase" (.string phase))
  | none => .text none .assistant content (extra.strMember "phase") extra

def parseToolCallNodeFromObj (obj : JsonMap) : Option Node := do
  let itemType ← obj.strMember "type"
  if ["tool_call", "function_call", "tool_use", "custom_tool_call", "function", "custom"].contains itemType then
    let toolType : ToolCallType :=
      if itemType = "custom_tool_call" ∨ (obj.member "custom").isSome then .custom else .function
    let callId := ((obj.member "call_id" <|> obj.member "id").bind JsonValue.asStr).getD ""
    let payloadKey := if toolType = .custom then "custom" else "function"
    let name := (obj.strMember "name" <|>
      ((obj.member payloadKey).bind JsonValue.asObject).bind (JsonMap.strMember · "name")).getD ""
    let arguments := ((parseToolCallArgumentsValue obj).map JsonValue.plainText).getD "\x7b\x7d"
    if callId = "" ∨ name = "" then none
    else some (.toolCall (obj.strMember "id") toolType callId name arguments
      (splitExtra obj ["type", "call_id", "id", "name", "arguments", "input", "args", "function", "custom"]))
  else none

def parseLegacyFunctionCallPart (value : JsonValue) : Option Node := do
  let functionCall ← value.asObject
  let name ← functionCall.strMember "name"
  let arguments := ((functionCall.member "arguments").map JsonValue.plainText).getD ""
  some (.toolCall none .function ("legacy_function:" ++ name) name arguments
    (JsonMap.insert (splitExtra functionCall ["name", "arguments"]) chatLegacyFunctionCallExtraKey (.bool true)))

def parseChatMessageAudioPart (value : JsonValue) : Option Node := do
  let body ← value.asObject
  if body = [] then none
  else some (.providerItem (body.strMember "id") .chatCompletion .assistant "audio" (.object body)
    [(chatMessageAudioExtraKey, .bool true)])

def scalarReasoningNode (msg : JsonMap) : Option Node :=
  let scalar (surface : String) := ((msg.strMember surface).filter (· ≠ "")).map fun content =>
    Node.reasoning none (some content) none none none [(chatReasoningSurfaceExtraKey, .string surface)]
  scalar "reasoning" <|> scalar "reasoning_content"

def parseChatReasoningFields (msg : JsonMap) : List Node :=
  match ((msg.member "reasoning_details").bind JsonValue.asArray).filter (fun details => ¬ details.isEmpty) with
  | some details => details.filterMap fun detail => detail.asObject.bind chatReasoningNodeFromDetail
  | none =>
    (scalarReasoningNode msg).toList ++
      ((msg.strMember "reasoning_opaque").filter (· ≠ "")).toList.map fun opaqueText =>
        .reasoning none none (some (.string opaqueText)) none none []

def chatContentBlockParts (readers : ChatBlockReaders) (phase : Option String) (block : JsonValue) : List Node :=
  match block with
  | .string text => if text = "" then [] else [textPartWithPhase text phase []]
  | .object obj =>
    let text := if isTextBlock obj then (JsonMap.strMember obj "text").filter (· ≠ "") else none
    let parts := text.toList.map (fun text => textPartWithPhase text phase (splitExtra obj ["type", "text"])) ++
      (readers.image obj).toList ++ (readers.file obj).toList ++ (readers.audio obj).toList ++
      (parseToolCallNodeFromObj obj).toList
    if parts = [] then
      [.providerItem (JsonMap.strMember obj "id" <|> some (readers.providerItemId obj)) .chatCompletion .assistant
        ((JsonMap.strMember obj "type").getD "") (.object obj) []]
    else parts
  | _ => []

def chatContentParts (readers : ChatBlockReaders) (phase : Option String) : JsonValue → List Node
  | .string text => if text = "" then [] else [textPartWithPhase text phase []]
  | .array blocks => blocks.flatMap (chatContentBlockParts readers phase)
  | _ => []

def chatMessageParts (readers : ChatBlockReaders) (msg : JsonMap) : List Node :=
  let phase := msg.strMember "phase"
  parseChatReasoningFields msg ++
    (((msg.member "audio").filter (fun v => ¬ v.isNull)).bind parseChatMessageAudioPart).toList ++
    ((msg.member "content").map (chatContentParts readers phase)).getD [] ++
    (((msg.member "tool_calls").bind JsonValue.asArray).getD []).filterMap
      (fun call => call.asObject.bind parseToolCallNodeFromObj) ++
    (((msg.member "function_call").filter (fun v => ¬ v.isNull)).bind parseLegacyFunctionCallPart).toList ++
    ((msg.strMember "refusal").filter (· ≠ "")).toList.map fun refusal => .refusal none refusal []

def pushMessageNodes (parts : List Node) (extra : JsonMap) : List Node :=
  if parts ≠ [] ∧ extra ≠ [] then .nextDownstreamEnvelopeExtra extra :: parts else parts

def formatChatCompletionError (error : JsonValue) : String :=
  let message := ((error.getStr "message" <|> error.asStr).filter (· ≠ "")).getD "upstream chat completion error"
  match (error.get "code").bind jsonScalarString with
  | some code => message ++ " (code: " ++ code ++ ")"
  | none => message

def decodeChatResponse (readers : ChatBlockReaders) (value : JsonValue) : Except String UrpResponse := do
  let some obj := value.asObject | throw "chat response must be object"
  if let some error := (obj.member "error").filter (fun e => ¬ e.isNull) then
    throw (formatChatCompletionError error)
  let some choice := chatChoice value | throw "missing choices[0]"
  if let some error := (choice.member "error").filter (fun e => ¬ e.isNull) then
    throw (formatChatCompletionError error)
  let finishReason := (choice.strMember "finish_reason").filter (· ≠ "")
  if finishReason = some "error" then
    throw "upstream chat completion terminated with finish_reason=error"
  let some msg := (choice.member "message").bind JsonValue.asObject | throw "missing choices[0].message"
  let messageExtra := splitExtra msg ("audio" :: chatDeltaKnownKeys)
  let choiceExtra := choice.filter fun e => ¬ ["index", "message", "finish_reason"].contains e.1
  let extra := splitExtra obj ["id", "object", "created", "model", "choices", "usage"]
  let extra := if choiceExtra = [] then extra else extra.insert chatChoiceExtraBodyKey (.object choiceExtra)
  return {
    id := (obj.strMember "id").getD "chat_completion"
    model := (obj.strMember "model").getD ""
    createdAt := match obj.member "created" with
      | some (.int n) => if -2 ^ 63 ≤ n ∧ n < 2 ^ 63 then some n else none
      | _ => none
    output := pushMessageNodes (chatMessageParts readers msg) messageExtra
    finishReason := finishReason.map parseFinishReason
    extraBody := match finishReason with
      | some reason => extra.insert chatNativeFinishReasonExtraKey (.string reason)
      | none => extra }

end Monoize.Urp
