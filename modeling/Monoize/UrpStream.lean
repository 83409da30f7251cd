import Monoize.JsonValue

/-! The unified representation that every provider stream is decoded to and every client stream is
encoded from: nodes, and the events by which nodes are started, extended and completed. Token usage
is left out. -/

namespace Monoize.Urp

inductive OrdinaryRole
  | system
  | developer
  | user
  | assistant
  deriving DecidableEq

inductive ToolCallType
  | function
  | custom
  deriving DecidableEq

inductive ProviderProtocol
  | responses
  | chatCompletion
  | messages
  | gemini
  | openaiImage
  | replicate
  deriving DecidableEq

inductive FinishReason
  | stop
  | length
  | toolCalls
  | contentFilter
  | other
  deriving DecidableEq

inductive ImageSource
  | url (url : String) (detail : Option String)
  | base64 (mediaType data : String)
  | fileId (fileId : String) (detail : Option String)
  deriving DecidableEq

inductive AudioSource
  | url (url : String)
  | base64 (mediaType data : String)
  deriving DecidableEq

inductive FileSource
  | url (url : String)
  | fileId (fileId : String)
  | text (text : String)
  | content (content : List JsonValue)
  | base64 (filename : Option String) (mediaType data : String)
  deriving DecidableEq

inductive ToolResultContent
  | text (text : String) (extraBody : JsonMap)
  | image (source : ImageSource) (extraBody : JsonMap)
  | file (source : FileSource) (extraBody : JsonMap)
  | providerItem (originProtocol : ProviderProtocol) (itemType : String) (body : JsonValue) (extraBody : JsonMap)
  deriving DecidableEq

inductive Node
  | text (id : Option String) (role : OrdinaryRole) (content : String) (phase : Option String) (extraBody : JsonMap)
  | image (id : Option String) (role : OrdinaryRole) (source : ImageSource) (extraBody : JsonMap)
  | audio (id : Option String) (role : OrdinaryRole) (source : AudioSource) (extraBody : JsonMap)
  | file (id : Option String) (role : OrdinaryRole) (source : FileSource) (extraBody : JsonMap)
  | refusal (id : Option String) (content : String) (extraBody : JsonMap)
  | reasoning (id content : Option String) (encrypted : Option JsonValue) (summary source : Option String)
      (extraBody : JsonMap)
  | toolCall (id : Option String) (toolType : ToolCallType) (callId name arguments : String) (extraBody : JsonMap)
  | providerItem (id : Option String) (originProtocol : ProviderProtocol) (role : OrdinaryRole) (itemType : String)
      (body : JsonValue) (extraBody : JsonMap)
  | toolResult (id : Option String) (toolType : ToolCallType) (callId : String) (isError : Bool)
      (content : List ToolResultContent) (extraBody : JsonMap)
  | nextDownstreamEnvelopeExtra (extraBody : JsonMap)
  deriving DecidableEq

inductive NodeHeader
  | text (id : Option String) (role : OrdinaryRole) (phase : Option String)
  | image (id : Option String) (role : OrdinaryRole)
  | audio (id : Option String) (role : OrdinaryRole)
  | file (id : Option String) (role : OrdinaryRole)
  | refusal (id : Option String)
  | reasoning (id : Option String)
  | toolCall (id : Option String) (toolType : ToolCallType) (callId name : String)
  | providerItem (id : Option String) (originProtocol : ProviderProtocol) (role : OrdinaryRole) (itemType : String)
  | toolResult (id : Option String) (toolType : ToolCallType) (callId : String)
  | nextDownstreamEnvelopeExtra
  deriving DecidableEq

inductive NodeDelta
  | text (content : String)
  | reasoning (content : Option String) (encrypted : Option JsonValue) (summary source : Option String)
  | refusal (content : String)
  | toolCallArguments (arguments : String)
  | image (source : ImageSource)
  | audio (source : AudioSource)
  | file (source : FileSource)
  | providerItem (data : JsonValue)
  deriving DecidableEq

inductive UrpStreamEvent
  | responseStart (id model : String) (extraBody : JsonMap)
  | nodeStart (nodeIndex : Nat) (header : NodeHeader) (extraBody : JsonMap)
  | nodeDelta (nodeIndex : Nat) (delta : NodeDelta) (extraBody : JsonMap)
  | nodeDone (nodeIndex : Nat) (node : Node) (extraBody : JsonMap)
  | responseDone (finishReason : Option FinishReason) (output : List Node) (extraBody : JsonMap)
  | providerControl (protocol eventName : String) (data : JsonValue) (extraBody : JsonMap)
  | error (code : Option String) (message : String) (extraBody : JsonMap)
  deriving DecidableEq

namespace Node

def isReasoning : Node → Bool
  | .reasoning .. => true
  | _ => false

def isProviderItem : Node → Bool
  | .providerItem .. => true
  | _ => false

def assistantText : Node → Option String
  | .text _ .assistant content _ _ => some content
  | _ => none

def refusalText : Node → Option String
  | .refusal _ content _ => some content
  | _ => none

def call : Node → Option (String × String × String)
  | .toolCall _ _ callId name arguments _ => some (callId, name, arguments)
  | _ => none

theorem isReasoning.views {node : Node} (h : node.isReasoning = true) :
    node.assistantText = none ∧ node.refusalText = none ∧ node.call = none := by
  cases node <;> first | exact ⟨rfl, rfl, rfl⟩ | cases h

theorem isProviderItem.views {node : Node} (h : node.isProviderItem = true) :
    node.assistantText = none ∧ node.refusalText = none ∧ node.call = none := by
  cases node <;> first | exact ⟨rfl, rfl, rfl⟩ | cases h

end Node

/-! What the fragments of a node amount to, field by field. -/

namespace NodeDelta

def textPart : NodeDelta → String
  | .text content => content
  | _ => ""

def refusalPart : NodeDelta → String
  | .refusal content => content
  | _ => ""

def argumentsPart : NodeDelta → String
  | .toolCallArguments arguments => arguments
  | _ => ""

def contentPart : NodeDelta → String
  | .reasoning content _ _ _ => content.getD ""
  | _ => ""

def summaryPart : NodeDelta → String
  | .reasoning _ _ summary _ => summary.getD ""
  | _ => ""

def encryptedPart : NodeDelta → String
  | .reasoning _ encrypted _ _ => (encrypted.map JsonValue.plainText).getD ""
  | _ => ""

end NodeDelta

def joined (part : NodeDelta → String) (deltas : List NodeDelta) : String := String.join (deltas.map part)

@[simp] theorem joined_nil (part : NodeDelta → String) : joined part [] = "" := rfl

@[simp] theorem joined_append (part : NodeDelta → String) (ds es : List NodeDelta) :
    joined part (ds ++ es) = joined part ds ++ joined part es := by
  simp [joined, String.join_append]

@[simp] theorem joined_cons (part : NodeDelta → String) (d : NodeDelta) (ds : List NodeDelta) :
    joined part (d :: ds) = part d ++ joined part ds := by
  simp [joined, String.join_cons]

/-- The fragments of a node, put together, are the content of the completed node. -/
def Node.Accumulates : Node → List NodeDelta → Prop
  | .text _ _ content _ _, deltas => joined NodeDelta.textPart deltas = content
  | .refusal _ content _, deltas => joined NodeDelta.refusalPart deltas = content
  | .reasoning _ content encrypted summary _ _, deltas =>
    joined NodeDelta.contentPart deltas = content.getD "" ∧ joined NodeDelta.summaryPart deltas = summary.getD "" ∧
      joined NodeDelta.encryptedPart deltas = (encrypted.map JsonValue.plainText).getD ""
  | .toolCall _ _ _ _ arguments _, deltas => joined NodeDelta.argumentsPart deltas = arguments
  | _, _ => True

def NodeHeader.Announces : NodeHeader → Node → Prop
  | .text _ role _, .text _ role' _ _ _ => role = role'
  | .image _ role, .image _ role' _ _ => role = role'
  | .audio _ role, .audio _ role' _ _ => role = role'
  | .file _ role, .file _ role' _ _ => role = role'
  | .refusal _, .refusal _ _ _ => True
  | .reasoning _, .reasoning .. => True
  | .toolCall _ _ callId _, .toolCall _ _ callId' _ _ _ => callId = callId'
  | .providerItem _ protocol role itemType, .providerItem _ protocol' role' itemType' _ _ =>
    protocol = protocol' ∧ role = role' ∧ itemType = itemType'
  | .toolResult _ _ callId, .toolResult _ _ callId' _ _ _ => callId = callId'
  | .nextDownstreamEnvelopeExtra, .nextDownstreamEnvelopeExtra _ => True
  | _, _ => False

end Monoize.Urp
