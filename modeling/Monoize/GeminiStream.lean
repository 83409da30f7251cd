import Monoize.ChatStreamDecoder

/-! The decoder of Gemini streams. A node's extra body is always empty; `none` is a panic. -/

namespace Monoize.Urp

open List Option Function

inductive ActiveNode
  | text (content : String)
  | reasoning (content encrypted : String)
  | toolCall (callId name arguments : String)
  | providerItem (id : Option String) (itemType : String) (body : JsonValue)
  deriving DecidableEq

structure CandidatePart where
  nodeIndex : Nat
  activeNode : ActiveNode
  deriving DecidableEq

/-- The provider item ids are the ones drawn at a part's position, by the number of events that follow. -/
structure GeminiContext where
  (responseId model : String)
  providerItemId : Nat → Nat → String

def candidateText (part : JsonValue) : Option CandidatePart :=
  (part.getStr "text").map fun text =>
    if part.get "thought" = some (.bool true) then
      ⟨1, .reasoning text (((part.get "thoughtSignature").map JsonValue.plainText).getD "")⟩
    else ⟨0, .text text⟩

def candidateCall (fc : JsonMap) (nextToolNodeIndex : Nat) : Option ActiveNode :=
  let callId := (((fc.member "id").or (fc.member "name")).bind JsonValue.asStr).getD ""
  let name := (fc.strMember "name").getD ""
  if name = "" then none
  else some (.toolCall (if callId = "" then "call_" ++ toString (nextToolNodeIndex - 1) else callId) name
    ((fc.member "args").getD .null).render)

def candidateProviderItem (newId : String) (part : JsonValue) : ActiveNode :=
  .providerItem (some ((part.getStr "id").getD newId)) ((part.getStr "type").getD "") part

def parseCandidateParts (newId : Nat → String) : List JsonValue → Nat → Nat → Option (List CandidatePart)
  | [], _, _ => some []
  | part :: parts, partPos, nextTool =>
    let text := candidateText part
    let fc := (part.get "functionCall").bind JsonValue.asObject
    match fc.bind (candidateCall · nextTool) with
    | some call =>
      if nextTool + 1 < 2 ^ 32 then
        (parseCandidateParts newId parts (partPos + 1) (nextTool + 1)).map (text.toList ++ ⟨nextTool, call⟩ :: ·)
      else none
    | none =>
      if text.isSome ∨ fc.isSome then (parseCandidateParts newId parts (partPos + 1) nextTool).map (text.toList ++ ·)
      else if 10000 + partPos % 2 ^ 32 < 2 ^ 32 then
        (parseCandidateParts newId parts (partPos + 1) nextTool).map
          (⟨10000 + partPos % 2 ^ 32, candidateProviderItem (newId partPos) part⟩ :: ·)
      else none

/-- The text from byte `n` on, unless `n` is past it or inside a character. -/
def sliceFrom : List Char → Nat → Option (List Char)
  | cs, 0 => some cs
  | [], _ + 1 => none
  | c :: cs, n + 1 => if c.utf8Size ≤ n + 1 then sliceFrom cs (n + 1 - c.utf8Size) else none

def tailAfter (content next : String) : Option (Option String) :=
  if content.utf8ByteSize < next.utf8ByteSize then
    (sliceFrom next.toList content.utf8ByteSize).map fun cs => some (String.ofList cs)
  else some none

def updateActiveNode : ActiveNode → ActiveNode → Option (ActiveNode × List NodeDelta)
  | .text content, .text next => (tailAfter content next).map fun delta =>
    (.text next, (delta.filter (· ≠ "")).toList.map .text)
  | .reasoning content encrypted, .reasoning next nextEncrypted =>
    (tailAfter content next).bind fun contentDelta => (tailAfter encrypted nextEncrypted).map fun encryptedDelta =>
      let contentDelta := contentDelta.filter (· ≠ "")
      (.reasoning next nextEncrypted, if contentDelta.isSome ∨ encryptedDelta.isSome then
        [.reasoning contentDelta (encryptedDelta.map .string) none none] else [])
  | .toolCall callId _ arguments, .toolCall _ name next => (tailAfter arguments next).map fun delta =>
    (.toolCall callId name next, (delta.filter (· ≠ "")).toList.map .toolCallArguments)
  | .providerItem id itemType _, .providerItem _ _ body => some (.providerItem id itemType body, [])
  | _, next => some (next, [])

def nonempty (s : String) : Option String := if s = "" then none else some s

def initialDeltasForActiveNode : ActiveNode → List NodeDelta
  | .text content => (nonempty content).toList.map .text
  | .reasoning content encrypted => if content = "" ∧ encrypted = "" then [] else
    [.reasoning (nonempty content) ((nonempty encrypted).map .string) none none]
  | .toolCall _ _ arguments => (nonempty arguments).toList.map .toolCallArguments
  | .providerItem .. => []

def nodeFromActive : ActiveNode → Node
  | .text content => .text none .assistant content none []
  | .reasoning content encrypted =>
    .reasoning none (nonempty content) ((nonempty encrypted).map .string) none none []
  | .toolCall callId name arguments => .toolCall (some callId) .function callId name arguments []
  | .providerItem id itemType body => .providerItem id .gemini .assistant itemType body []

def nodeHeaderFromNode : Node → NodeHeader
  | .text id role _ phase _ => .text id role phase
  | .reasoning id .. => .reasoning id
  | .toolCall id toolType callId name _ _ => .toolCall id toolType callId name
  | .image id role .. => .image id role
  | .audio id role .. => .audio id role
  | .file id role .. => .file id role
  | .refusal id .. => .refusal id
  | .providerItem id origin role itemType _ _ => .providerItem id origin role itemType
  | .toolResult id toolType callId .. => .toolResult id toolType callId
  | .nextDownstreamEnvelopeExtra _ => .nextDownstreamEnvelopeExtra

structure GeminiStream where
  nodeOrder : List Nat := []
  activeNodes : Nat → Option ActiveNode := fun _ => none
  startedResponse : Bool := false
  finishReason : Option FinishReason := none
  events : List UrpStreamEvent := []

namespace GeminiStream

def startResponse (ctx : GeminiContext) (s : GeminiStream) : GeminiStream :=
  if s.startedResponse then s else
    { s with startedResponse := true, events := s.events ++ [.responseStart ctx.responseId ctx.model []] }

def acceptPart (s : GeminiStream) (part : CandidatePart) : Option GeminiStream :=
  let i := part.nodeIndex
  let nodeOrder := if i ∈ s.nodeOrder then s.nodeOrder else s.nodeOrder ++ [i]
  match s.activeNodes i with
  | some existing => (updateActiveNode existing part.activeNode).map fun (node, deltas) =>
    { s with
      nodeOrder := nodeOrder
      activeNodes := Function.update s.activeNodes i (some node)
      events := s.events ++ deltas.map (.nodeDelta i · []) }
  | none => some
    { s with
      nodeOrder := nodeOrder
      activeNodes := Function.update s.activeNodes i (some part.activeNode)
      events := s.events ++ .nodeStart i (nodeHeaderFromNode (nodeFromActive part.activeNode)) [] ::
        (initialDeltasForActiveNode part.activeNode).map (.nodeDelta i · []) }

def nodes (s : GeminiStream) : List (Nat × Node) :=
  s.nodeOrder.filterMap fun i => (s.activeNodes i).map fun a => (i, nodeFromActive a)

def finish (s : GeminiStream) : GeminiStream :=
  { s with events := s.events ++ s.nodes.map (fun e => .nodeDone e.1 e.2 []) ++
      if s.startedResponse then [.responseDone s.finishReason (s.nodes.map (·.2)) []] else [] }

end GeminiStream

def candidateWithParts (data : JsonValue) : Option (JsonValue × List JsonValue) := do
  let candidate ← ((data.get "candidates").bind JsonValue.asArray).bind List.head?
  let parts ← ((candidate.get "content").bind (·.get "parts")).bind JsonValue.asArray
  some (candidate, parts)

def geminiFinishReason : String → FinishReason
  | "MAX_TOKENS" => .length
  | "SAFETY" => .contentFilter
  | "STOP" => .stop
  | _ => .other

def streamGemini (ctx : GeminiContext) : List ChatSseEvent → GeminiStream → Option GeminiStream
  | [], s | .done :: _, s => some s.finish
  | .idle :: _, s | .undecodable _ :: _, s => some s
  | .invalidJson _ _ :: rest, s => streamGemini ctx rest s
  | .chunk data :: rest, s =>
    match candidateWithParts data with
    | none => streamGemini ctx rest s
    | some (candidate, parts) => do
      let current ← parseCandidateParts (ctx.providerItemId rest.length) parts 0 2
      let s ← current.foldlM GeminiStream.acceptPart (s.startResponse ctx)
      match candidate.getStr "finishReason" with
      | some reason => some { s with finishReason := some (geminiFinishReason reason) }.finish
      | none => streamGemini ctx rest s

/-! What a stream delivers, before anything is made of it. -/

structure GeminiReading where
  parts : Option (List CandidatePart) := none
  finishReason : Option FinishReason := none
  complete : Bool := true
  deriving DecidableEq

def readGemini (ctx : GeminiContext) : List ChatSseEvent → Option GeminiReading
  | [] | .done :: _ => some {}
  | .idle :: _ | .undecodable _ :: _ => some { complete := false }
  | .invalidJson _ _ :: rest => readGemini ctx rest
  | .chunk data :: rest =>
    match candidateWithParts data with
    | none => readGemini ctx rest
    | some (candidate, parts) => do
      let current ← parseCandidateParts (ctx.providerItemId rest.length) parts 0 2
      match candidate.getStr "finishReason" with
      | some reason => some { parts := some current, finishReason := some (geminiFinishReason reason) }
      | none => (readGemini ctx rest).map fun r => { r with parts := some (current ++ r.parts.getD []) }

variable {ctx : GeminiContext} {s s' : GeminiStream} {part : CandidatePart} {parts : List CandidatePart}
  {sse : List ChatSseEvent} {a b : ActiveNode} {content next : String} {last : Nat → Option ActiveNode}

variable {i : Nat} {r : NodeRecord} {seen : Nat → Bool}

theorem acceptPart_frame (h : s.acceptPart part = some s') :
    s'.startedResponse = s.startedResponse ∧ s'.finishReason = s.finishReason := by
  unfold GeminiStream.acceptPart at h
  dsimp only at h
  split at h
  · obtain ⟨x, -, rfl⟩ := map_eq_some_iff.1 h
    exact ⟨rfl, rfl⟩
  · cases h
    exact ⟨rfl, rfl⟩

theorem foldlM_acceptPart_frame (h : parts.foldlM GeminiStream.acceptPart s = some s') :
    s'.startedResponse = s.startedResponse ∧ s'.finishReason = s.finishReason := by
  induction parts generalizing s with
  | nil =>
    cases h
    exact ⟨rfl, rfl⟩
  | cons part parts ih =>
    obtain ⟨t, ht, hrest⟩ := bind_eq_some_iff.1 h
    obtain ⟨h₁, h₂⟩ := ih hrest
    obtain ⟨h₃, h₄⟩ := acceptPart_frame ht
    exact ⟨h₁.trans h₃, h₂.trans h₄⟩

theorem startResponse_started (ctx : GeminiContext) (s : GeminiStream) :
    (s.startResponse ctx).startedResponse = true ∧ (s.startResponse ctx).finishReason = s.finishReason := by
  unfold GeminiStream.startResponse
  split
  · exact ⟨‹_›, rfl⟩
  · exact ⟨rfl, rfl⟩

def GeminiReading.result (ctx : GeminiContext) (s : GeminiStream) (r : GeminiReading) : Option GeminiStream :=
  ((r.parts.getD []).foldlM GeminiStream.acceptPart (if r.parts.isSome then s.startResponse ctx else s)).map fun t =>
    if r.complete then { t with finishReason := r.finishReason.or t.finishReason }.finish else t

theorem streamGemini_eq (sse : List ChatSseEvent) (s : GeminiStream) :
    streamGemini ctx sse s = (readGemini ctx sse).bind (GeminiReading.result ctx s) := by
  induction sse generalizing s with
  | nil => rfl
  | cons e rest ih =>
    cases e with
    | idle | undecodable | done => rfl
    | invalidJson => exact ih s
    | chunk data =>
      simp only [streamGemini, readGemini]
      split
      · exact ih s
      simp only [bind_eq_bind, bind_assoc]
      refine bind_congr fun current _ => ?_
      split
      · rw [bind_some, GeminiReading.result, map_eq_bind]
        rfl
      rw [bind_map]
      cases hcurrent : current.foldlM GeminiStream.acceptPart (s.startResponse ctx) with
      | none =>
        have hnone : ∀ r : GeminiReading, GeminiReading.result ctx s
            { r with parts := some (current ++ r.parts.getD []) } = none :=
          fun r => by simp [GeminiReading.result, hcurrent]
        simp [hnone]
      | some t =>
        have hstart : t.startResponse ctx = t :=
          if_pos ((foldlM_acceptPart_frame hcurrent).1.trans (startResponse_started ctx s).1)
        rw [bind_some, ih]
        refine bind_congr fun r _ => ?_
        simp [GeminiReading.result, hcurrent, hstart]

/-! Where the decoder panics. -/

theorem sliceFrom_eq_some {cs bs : List Char} {n : Nat} :
    sliceFrom cs n = some bs ↔ ∃ as, cs = as ++ bs ∧ String.utf8Len as = n := by
  induction cs generalizing n with
  | nil =>
    cases n with
    | zero => simp [sliceFrom]
    | succ n => simp [sliceFrom]
  | cons c cs ih =>
    cases n with
    | zero =>
      simp only [sliceFrom, some.injEq]
      constructor
      · rintro rfl
        exact ⟨[], rfl, rfl⟩
      · rintro ⟨as, heq, hlen⟩
        cases as with
        | nil => exact heq
        | cons a as =>
          have := a.utf8Size_pos
          simp at hlen
          omega
    | succ n =>
      simp only [sliceFrom, ite_none_right_eq_some, ih]
      constructor
      · rintro ⟨hle, as, rfl, hlen⟩
        exact ⟨c :: as, rfl, by simp; omega⟩
      · rintro ⟨as, heq, hlen⟩
        cases as with
        | nil => simp at hlen
        | cons a as =>
          obtain ⟨rfl, rfl⟩ := cons.inj heq
          simp only [String.utf8Len_cons] at hlen
          exact ⟨by omega, as, rfl, by omega⟩

/-- A text that is longer in bytes has a character boundary where the one before it ended. -/
def SliceableAfter (content next : String) : Prop :=
  content.utf8ByteSize < next.utf8ByteSize → ∃ x y, next = x ++ y ∧ x.utf8ByteSize = content.utf8ByteSize

theorem tailAfter_isSome : (tailAfter content next).isSome ↔ SliceableAfter content next := by
  unfold tailAfter SliceableAfter
  split
  · rename_i hlt
    simp only [hlt, forall_const, isSome_map, isSome_iff_exists, sliceFrom_eq_some]
    constructor
    · rintro ⟨bs, as, heq, hlen⟩
      refine ⟨String.ofList as, String.ofList bs, ?_, ?_⟩
      · rw [← String.ofList_append, ← heq, String.ofList_toList]
      · rw [← hlen, ← String.utf8Len_toList, String.toList_ofList]
    · rintro ⟨x, y, rfl, hlen⟩
      exact ⟨y.toList, x.toList, String.toList_append, by rw [String.utf8Len_toList, hlen]⟩
  · simp [*]

def ActiveNode.Sliceable : ActiveNode → ActiveNode → Prop
  | .text content, .text next => SliceableAfter content next
  | .reasoning content encrypted, .reasoning next nextEncrypted =>
    SliceableAfter content next ∧ SliceableAfter encrypted nextEncrypted
  | .toolCall _ _ arguments, .toolCall _ _ next => SliceableAfter arguments next
  | _, _ => True

/-- Each part can be sliced where the last one of its index ended. -/
def SlicedFrom : (Nat → Option ActiveNode) → List CandidatePart → Prop
  | _, [] => True
  | last, part :: parts => (∀ a, last part.nodeIndex = some a → a.Sliceable part.activeNode) ∧
    SlicedFrom (Function.update last part.nodeIndex (some part.activeNode)) parts

def ActiveNode.texts : ActiveNode → ActiveNode
  | .toolCall _ name arguments => .toolCall "" name arguments
  | .providerItem _ _ body => .providerItem none "" body
  | a => a

theorem updateActiveNode_isSome : (updateActiveNode a b).isSome ↔ a.Sliceable b := by
  cases a <;> cases b <;> simp [updateActiveNode, ActiveNode.Sliceable, ← tailAfter_isSome, Option.isSome_bind,
    Option.any_eq_true, Option.isSome_iff_exists]

theorem updateActiveNode_texts {c : ActiveNode} {deltas : List NodeDelta}
    (h : updateActiveNode a b = some (c, deltas)) : c.texts = b.texts := by
  cases a <;> cases b <;> simp [updateActiveNode, bind_eq_some_iff] at h <;> grind [ActiveNode.texts]

theorem sliceable_congr (h : a.texts = b.texts) (c : ActiveNode) : a.Sliceable c ↔ b.Sliceable c := by
  cases a <;> cases b <;> cases c <;> simp_all [ActiveNode.texts, ActiveNode.Sliceable]

def GeminiStream.Holds (s : GeminiStream) (last : Nat → Option ActiveNode) : Prop :=
  ∀ i, (s.activeNodes i).map ActiveNode.texts = (last i).map ActiveNode.texts

theorem acceptPart_holds (h : s.Holds last) (hs : s.acceptPart part = some s') :
    s'.Holds (update last part.nodeIndex (some part.activeNode)) := by
  have hupdate : ∀ c : ActiveNode, c.texts = part.activeNode.texts → ∀ i,
      (update s.activeNodes part.nodeIndex (some c) i).map ActiveNode.texts =
        (update last part.nodeIndex (some part.activeNode) i).map ActiveNode.texts := by
    intro c hc i
    by_cases hi : i = part.nodeIndex
    · subst hi
      simp [hc]
    · simp [hi, h i]
  unfold GeminiStream.acceptPart at hs
  dsimp only at hs
  split at hs
  · obtain ⟨⟨c, deltas⟩, hc, rfl⟩ := map_eq_some_iff.1 hs
    exact hupdate c (updateActiveNode_texts hc)
  · cases hs
    exact hupdate _ rfl

theorem acceptPart_isSome (h : s.Holds last) :
    (s.acceptPart part).isSome ↔ ∀ a, last part.nodeIndex = some a → a.Sliceable part.activeNode := by
  have hi := h part.nodeIndex
  unfold GeminiStream.acceptPart
  dsimp only
  split
  · rename_i existing hex
    obtain ⟨c, hc, htexts⟩ : ∃ c, last part.nodeIndex = some c ∧ existing.texts = c.texts := by
      rw [hex, map_some, eq_comm, map_eq_some_iff] at hi
      obtain ⟨c, hc, htexts⟩ := hi
      exact ⟨c, hc, htexts.symm⟩
    rw [isSome_map, updateActiveNode_isSome, sliceable_congr htexts, hc]
    simp
  · rename_i hex
    rw [hex, map_none, eq_comm, map_eq_none_iff] at hi
    simp [hi]

theorem foldlM_acceptPart_isSome (h : s.Holds last) :
    (parts.foldlM GeminiStream.acceptPart s).isSome ↔ SlicedFrom last parts := by
  induction parts generalizing s last with
  | nil => exact ⟨fun _ => trivial, fun _ => rfl⟩
  | cons part parts ih =>
    rw [SlicedFrom, ← acceptPart_isSome h, foldlM_cons]
    cases hs : s.acceptPart part with
    | none => simp
    | some t => simpa using ih (acceptPart_holds h hs)

theorem parseCandidateParts_isSome (newId : Nat → String) (ps : List JsonValue) (partPos nextTool : Nat)
    (hpos : partPos + ps.length + 10000 ≤ 2 ^ 32) (htool : nextTool + ps.length < 2 ^ 32) :
    (parseCandidateParts newId ps partPos nextTool).isSome := by
  induction ps generalizing partPos nextTool with
  | nil => rfl
  | cons p ps ih =>
    rw [length_cons] at hpos htool
    unfold parseCandidateParts
    dsimp only
    split
    · rw [if_pos (by omega), isSome_map]
      exact ih _ _ (by omega) (by omega)
    split
    · rw [isSome_map]
      exact ih _ _ (by omega) (by omega)
    · rw [if_pos (by omega), isSome_map]
      exact ih _ _ (by omega) (by omega)

def ShortChunk : ChatSseEvent → Prop
  | .chunk data => ∀ candidate ps, candidateWithParts data = some (candidate, ps) → ps.length + 10000 ≤ 2 ^ 32
  | _ => True

theorem readGemini_isSome (h : ∀ e ∈ sse, ShortChunk e) : (readGemini ctx sse).isSome := by
  induction sse with
  | nil => rfl
  | cons e rest ih =>
    have hrest := ih fun e he => h e (mem_cons_of_mem _ he)
    cases e with
    | idle | undecodable | done => rfl
    | invalidJson => exact hrest
    | chunk data =>
      have hshort := h _ (mem_cons_self ..)
      unfold readGemini
      split
      · exact hrest
      rename_i candidate ps hps
      have hlen := hshort candidate ps hps
      obtain ⟨current, hcurrent⟩ := isSome_iff_exists.1
        (parseCandidateParts_isSome (ctx.providerItemId rest.length) ps 0 2 (by omega) (by omega))
      simp only [hcurrent, bind_eq_bind, bind_some]
      split
      · rfl
      · rwa [isSome_map]

/-- With at most `2 ^ 32 - 10000` parts a chunk the indices stay in range, so that slices alone decide. -/
theorem streamGemini_isSome_iff (ctx : GeminiContext) (sse : List ChatSseEvent) :
    ((streamGemini ctx sse {}).isSome ↔ ∃ r, readGemini ctx sse = some r ∧ SlicedFrom (fun _ => none) (r.parts.getD [])) ∧
    ((∀ e ∈ sse, ShortChunk e) → (readGemini ctx sse).isSome) := by
  refine ⟨?_, readGemini_isSome⟩
  rw [streamGemini_eq]
  cases readGemini ctx sse with
  | none => simp
  | some r =>
    simp only [bind_some, GeminiReading.result, isSome_map, some.injEq, exists_eq_left']
    apply foldlM_acceptPart_isSome
    intro i
    split
    · rfl
    · rfl

def geminiChunk (parts : List JsonValue) (finishReason : JsonMap) : JsonValue :=
  .object [("candidates", .array [.object (("content", .object [("parts", .array parts)]) :: finishReason)])]

def geminiTexts (texts : List String) : List ChatSseEvent :=
  texts.map fun text => .chunk (geminiChunk [.object [("text", .string text)]] [])

def sampleGemini : GeminiContext := ⟨"resp", "gemini", fun _ _ => ""⟩

theorem streamGemini_isSome_sample : (∀ e ∈ geminiTexts ["a", "ab"], ShortChunk e) ∧
    (readGemini sampleGemini (geminiTexts ["a", "ab"])).isSome := by
  have hshort : ∀ e ∈ geminiTexts ["a", "ab"], ShortChunk e := by
    intro e he
    obtain ⟨text, -, rfl⟩ := mem_map.1 he
    rintro candidate ps hps
    cases hps
    exact (by decide : 1 + 10000 ≤ 2 ^ 32)
  exact ⟨hshort, (streamGemini_isSome_iff _ _).2 hshort⟩

/-- The second text is one character of two bytes, which the length of the first cuts. -/
theorem accentStream_panics : streamGemini sampleGemini (geminiTexts ["a", "é"]) {} = none := by decide +kernel

/-! Streams in which texts only grow. -/

variable {events : List UrpStreamEvent} {book : List NodeRecord}

theorem Records.deltas (h : Records events book)
    (hr : book[i]? = some r) (hopen : r.done = none) (ds : List NodeDelta) :
    Records (events ++ ds.map (.nodeDelta i · [])) (book.set i { r with deltas := r.deltas ++ ds }) := by
  induction ds generalizing events book r with
  | nil =>
    obtain ⟨hi, rfl⟩ := List.getElem?_eq_some_iff.1 hr
    rw [List.map_nil, List.append_nil, List.append_nil]
    exact (set_getElem_self hi).symm ▸ h
  | cons d ds ih =>
    have hi := (List.getElem?_eq_some_iff.1 hr).1
    have hnext := ih (h.delta hr hopen d []) (List.getElem?_set_self hi) hopen
    simpa using hnext

def ActiveNode.Extends : ActiveNode → ActiveNode → Prop
  | .text content, .text next => ∃ tail, next = content ++ tail
  | .reasoning content encrypted, .reasoning next nextEncrypted =>
    (∃ tail, next = content ++ tail) ∧ ∃ tail, nextEncrypted = encrypted ++ tail
  | .toolCall _ _ arguments, .toolCall _ _ next => ∃ tail, next = arguments ++ tail
  | _, _ => False

def ActiveNode.isText (a : ActiveNode) : Bool := a matches .text _

def ActiveNode.isThought (a : ActiveNode) : Bool := a matches .reasoning ..

/-- A part extends the last one of its node; the first text comes before the first thought and this before the calls, and
there are no other parts. -/
def SteadyFrom : (text thought : Bool) → (Nat → Option ActiveNode) → List CandidatePart → Prop
  | _, _, _, [] => True
  | text, thought, last, part :: parts =>
    (∀ a, last part.nodeIndex = some a → a.Extends part.activeNode) ∧
    (match part.activeNode with
      | .text _ => True
      | .reasoning .. => text = true
      | .toolCall .. => thought = true
      | .providerItem .. => False) ∧
    SteadyFrom (text || part.activeNode.isText) (thought || part.activeNode.isThought)
      (Function.update last part.nodeIndex (some part.activeNode)) parts

/-- Texts have index 0 and thoughts index 1, and calls take the indices from 2 on in order. -/
def NumberedFrom : (Nat → Bool) → List CandidatePart → Prop
  | _, [] => True
  | seen, part :: parts =>
    (match part.activeNode with
      | .text _ => part.nodeIndex = 0
      | .reasoning .. => part.nodeIndex = 1
      | .toolCall .. => 2 ≤ part.nodeIndex ∧ ∀ j, 2 ≤ j → j < part.nodeIndex → seen j = true
      | .providerItem .. => True) ∧
    NumberedFrom (Function.update seen part.nodeIndex true) parts

theorem NumberedFrom.append {more : List CandidatePart} (h : NumberedFrom seen parts)
    (hmore : ∀ seen, NumberedFrom seen more) : NumberedFrom seen (parts ++ more) := by
  induction parts generalizing seen with
  | nil => exact hmore seen
  | cons part parts ih => exact ⟨h.1, ih h.2⟩

theorem parseCandidateParts_numbered {newId : Nat → String} {ps : List JsonValue} {partPos nextTool : Nat}
    (h : parseCandidateParts newId ps partPos nextTool = some parts) (htool : 2 ≤ nextTool)
    (hseen : ∀ j, 2 ≤ j → j < nextTool → seen j = true) : NumberedFrom seen parts := by
  induction ps generalizing partPos nextTool seen parts with
  | nil =>
    cases h
    trivial
  | cons p ps ih =>
    have htext : ∀ {seen : Nat → Bool} {rest : List CandidatePart}, (∀ j, 2 ≤ j → j < nextTool → seen j = true) →
        (∀ seen : Nat → Bool, (∀ j, 2 ≤ j → j < nextTool → seen j = true) → NumberedFrom seen rest) →
        NumberedFrom seen ((candidateText p).toList ++ rest) := by
      intro seen rest hseen hrest
      unfold candidateText
      cases p.getStr "text" with
      | none => exact hrest seen hseen
      | some text =>
        rw [map_some]
        split <;> exact ⟨rfl, hrest _ fun j h₂ hj => by simp [update, hseen j h₂ hj]⟩
    unfold parseCandidateParts at h
    dsimp only at h
    split at h
    · rename_i call hcall
      obtain ⟨fc, -, hcall⟩ := bind_eq_some_iff.1 hcall
      obtain ⟨-, h⟩ := ite_none_right_eq_some.1 h
      obtain ⟨rest, hrest, rfl⟩ := map_eq_some_iff.1 h
      refine htext hseen fun seen hseen => ⟨?_, ih hrest (by omega) fun j h₂ hj => ?_⟩
      · unfold candidateCall at hcall
        dsimp only at hcall
        obtain ⟨-, hcall⟩ := ite_none_left_eq_some.1 hcall
        cases hcall
        exact ⟨htool, hseen⟩
      · by_cases hlast : j = nextTool
        · simp [hlast]
        · simp [hlast, hseen j h₂ (by omega)]
    · split at h
      · obtain ⟨rest, hrest, rfl⟩ := map_eq_some_iff.1 h
        exact htext hseen fun seen hseen => ih hrest htool hseen
      · obtain ⟨-, h⟩ := ite_none_right_eq_some.1 h
        obtain ⟨rest, hrest, rfl⟩ := map_eq_some_iff.1 h
        exact ⟨trivial, ih hrest htool fun j h₂ hj => by simp [update, hseen j h₂ hj]⟩

theorem readGemini_numbered {r : GeminiReading} (h : readGemini ctx sse = some r) (seen : Nat → Bool) :
    NumberedFrom seen (r.parts.getD []) := by
  induction sse generalizing r seen with
  | nil =>
    cases h
    trivial
  | cons e rest ih =>
    cases e with
    | idle | undecodable | done =>
      cases h
      trivial
    | invalidJson => exact ih h seen
    | chunk data =>
      unfold readGemini at h
      split at h
      · exact ih h seen
      obtain ⟨current, hcurrent, h⟩ := bind_eq_some_iff.1 h
      have hnumbered : NumberedFrom seen current :=
        parseCandidateParts_numbered hcurrent (le_refl 2) fun j h₂ hj => by omega
      split at h
      · cases h
        exact hnumbered
      · obtain ⟨r', hr', rfl⟩ := map_eq_some_iff.1 h
        exact hnumbered.append fun seen => ih hr' seen

theorem extends_congr (h : a.texts = b.texts) (c : ActiveNode) : a.Extends c ↔ b.Extends c := by
  cases a <;> cases b <;> cases c <;> simp_all [ActiveNode.texts, ActiveNode.Extends]

theorem nonempty_getD (s : String) : (nonempty s).getD "" = s ∧ (nonempty s).filter (· ≠ "") = nonempty s := by
  unfold nonempty
  split <;> simp_all

theorem tailAfter_append (content tail : String) : tailAfter content (content ++ tail) = some (nonempty tail) := by
  unfold tailAfter nonempty
  by_cases htail : tail = ""
  · simp [htail]
  · have hpos : 0 < tail.utf8ByteSize := Nat.pos_of_ne_zero (by simpa using htail)
    rw [if_pos (by simpa using hpos), if_neg htail, map_eq_some_iff]
    refine ⟨tail.toList, sliceFrom_eq_some.2 ⟨content.toList, by simp, String.utf8Len_toList _⟩, by simp⟩

theorem joined_fragment {fragment : NodeDelta → String} {delta : String → NodeDelta} (h : ∀ s, fragment (delta s) = s)
    (s : String) : joined fragment ((nonempty s).toList.map delta) = s := by
  unfold nonempty
  split
  · simp [*]
  · simp [h]

theorem joined_reasoning (x y : String) {p : Prop} [Decidable p] (hp : p ↔ ¬ (x = "" ∧ y = "")) {deltas : List NodeDelta}
    (h : deltas = if p then [.reasoning (nonempty x) ((nonempty y).map .string) none none] else []) :
    joined NodeDelta.contentPart deltas = x ∧ joined NodeDelta.summaryPart deltas = "" ∧
      joined NodeDelta.encryptedPart deltas = y := by
  by_cases hx : x = "" <;> by_cases hy : y = "" <;>
    simp [h, hp, hx, hy, nonempty, NodeDelta.contentPart, NodeDelta.summaryPart, NodeDelta.encryptedPart]

theorem reasoning_accumulates (x y : String) (ds : List NodeDelta) :
    (nodeFromActive (.reasoning x y)).Accumulates ds ↔ joined NodeDelta.contentPart ds = x ∧
      joined NodeDelta.summaryPart ds = "" ∧ joined NodeDelta.encryptedPart ds = y := by
  simp only [nodeFromActive, Node.Accumulates, (nonempty_getD x).1, Option.map_map, Function.comp_def,
    JsonValue.plainText_string, Option.map_id', (nonempty_getD y).1, Option.getD_none]

theorem updateActiveNode_extends (h : a.Extends b) : ∃ c deltas, updateActiveNode a b = some (c, deltas) ∧
    (∀ header : NodeHeader, header.Announces (nodeFromActive a) → header.Announces (nodeFromActive c)) ∧
    ∀ ds, (nodeFromActive a).Accumulates ds → (nodeFromActive c).Accumulates (ds ++ deltas) := by
  cases a with
  | text | toolCall =>
    cases b with
    | text | toolCall =>
      first
      | exact h.elim
      | obtain ⟨tail, rfl⟩ := h
        rw [updateActiveNode, tailAfter_append]
        refine ⟨_, _, rfl, fun header hh => by cases header <;> exact hh, fun ds hds => ?_⟩
        simp only [nodeFromActive, Node.Accumulates] at hds ⊢
        rw [(nonempty_getD tail).2, joined_append, hds, joined_fragment fun _ => rfl]
    | _ => exact h.elim
  | reasoning content encrypted =>
    cases b with
    | reasoning next nextEncrypted =>
      obtain ⟨⟨tail, rfl⟩, etail, rfl⟩ := h
      simp only [updateActiveNode, tailAfter_append, bind_some, (nonempty_getD tail).2]
      refine ⟨_, _, rfl, fun header hh => by cases header <;> exact hh, fun ds hds => ?_⟩
      obtain ⟨hc, hs, he⟩ := (reasoning_accumulates ..).1 hds
      obtain ⟨hc', hs', he'⟩ := joined_reasoning tail etail (p := (nonempty tail).isSome ∨ (nonempty etail).isSome)
        (by unfold nonempty; grind) rfl
      rw [reasoning_accumulates]
      simp only [joined_append, hc, hs, he, hc', hs', he', String.append_empty, and_self]
    | _ => exact h.elim
  | providerItem id itemType body => exact h.elim

theorem initialDeltas_accumulate (a : ActiveNode) : (nodeFromActive a).Accumulates (initialDeltasForActiveNode a) := by
  cases a with
  | text | toolCall => exact joined_fragment (fun _ => rfl) _
  | reasoning content encrypted =>
    rw [reasoning_accumulates]
    exact joined_reasoning content encrypted Iff.rfl (ite_not ..).symm
  | providerItem => trivial

theorem nodeHeaderFromNode_announces (a : ActiveNode) :
    (nodeHeaderFromNode (nodeFromActive a)).Announces (nodeFromActive a) := by
  cases a with
  | text | toolCall => rfl
  | reasoning => trivial
  | providerItem => exact ⟨rfl, rfl, rfl⟩

/-- The book has a record of each active node, by its index. -/
structure GeminiStream.Recorded (s : GeminiStream) (book : List NodeRecord) : Prop where
  records : Records s.events book
  order : s.nodeOrder = List.range book.length
  active : ∀ i, (s.activeNodes i).isSome = book[i]?.isSome
  held : ∀ i a, s.activeNodes i = some a → ∃ r, book[i]? = some r ∧ r.Holds (nodeFromActive a)

theorem GeminiStream.Recorded.update {book' : List NodeRecord} {order : List Nat}
    (h : s.Recorded book) (hrec : Records events book') (horder : order = range book'.length)
    (hr : book'[i]? = some r) (hholds : r.Holds (nodeFromActive a)) (hothers : ∀ j, j ≠ i → book'[j]? = book[j]?) :
    GeminiStream.Recorded { s with
      nodeOrder := order
      activeNodes := update s.activeNodes i (some a)
      events := events } book' := by
  refine ⟨hrec, horder, fun j => ?_, fun j c hc => ?_⟩
  · by_cases hj : j = i
    · simp [hj, hr]
    · simp [hj, hothers j hj, h.active]
  · by_cases hj : j = i
    · subst hj
      obtain rfl : a = c := by simpa using hc
      exact ⟨r, hr, hholds⟩
    · rw [hothers j hj]
      exact h.held j c (by simpa [hj] using hc)

theorem acceptPart_recorded (h : s.Recorded book) (hlast : s.Holds last)
    (hextends : ∀ a, last part.nodeIndex = some a → a.Extends part.activeNode)
    (hnew : last part.nodeIndex = none → part.nodeIndex = book.length) :
    ∃ s' book', s.acceptPart part = some s' ∧ s'.Recorded book' := by
  have hi := hlast part.nodeIndex
  unfold GeminiStream.acceptPart
  dsimp only
  cases hactive : s.activeNodes part.nodeIndex with
  | none =>
    rw [hactive, map_none, eq_comm, map_eq_none_iff] at hi
    have hindex := hnew hi
    have hstart := (h.records.start (nodeHeaderFromNode (nodeFromActive part.activeNode)) []).deltas
      (getElem?_concat_length ..) rfl (initialDeltasForActiveNode part.activeNode)
    rw [append_assoc, ← hindex] at hstart
    refine ⟨_, _, rfl, h.update hstart ?_ (getElem?_set_self ?_) ⟨rfl, nodeHeaderFromNode_announces _,
      initialDeltas_accumulate _⟩ fun j hj => ?_⟩
    · simp [h.order, hindex, range_succ]
    · simp [hindex]
    · grind
  | some existing =>
    rw [hactive, map_some, eq_comm, map_eq_some_iff] at hi
    obtain ⟨c, hc, htexts⟩ := hi
    obtain ⟨node, deltas, hupdate, hann, hacc⟩ := updateActiveNode_extends ((extends_congr htexts _).1 (hextends c hc))
    obtain ⟨r, hr, hopen, hra, hrc⟩ := h.held _ _ hactive
    have hlt := (List.getElem?_eq_some_iff.1 hr).1
    dsimp only
    rw [hupdate]
    refine ⟨_, _, rfl, h.update (h.records.deltas hr hopen deltas) ?_ (getElem?_set_self hlt)
      ⟨hopen, hann _ hra, hacc _ hrc⟩ fun j hj => getElem?_set_ne (Ne.symm hj)⟩
    simp [h.order, hlt]

theorem foldlM_acceptPart_recorded {text thought : Bool} (h : s.Recorded book) (hlast : s.Holds last)
    (hnumbered : NumberedFrom (fun i => (last i).isSome) parts) (hsteady : SteadyFrom text thought last parts)
    (htext : text = true → (last 0).isSome) (hthought : thought = true → (last 1).isSome) :
    ∃ s' book', parts.foldlM GeminiStream.acceptPart s = some s' ∧ s'.Recorded book' := by
  induction parts generalizing s book last text thought with
  | nil => exact ⟨s, book, rfl, h⟩
  | cons part parts ih =>
    obtain ⟨hindex, hnumbered⟩ := hnumbered
    obtain ⟨hextends, hkind, hrest⟩ := hsteady
    have hseen : ∀ i, (last i).isSome = true ↔ i < book.length := by
      intro i
      rw [← isSome_map (f := ActiveNode.texts), ← hlast i, isSome_map, h.active i]
      simp
    have hupdate : (fun i => (update last part.nodeIndex (some part.activeNode) i).isSome) =
        update (fun i => (last i).isSome) part.nodeIndex true := by
      funext i
      by_cases hi : i = part.nodeIndex <;> simp [hi]
    have hnew : last part.nodeIndex = none → part.nodeIndex = book.length := by
      intro hnone
      have hle : book.length ≤ part.nodeIndex := not_lt.1 fun hlt => by
        rw [← hseen, hnone] at hlt
        cases hlt
      obtain ⟨i, node⟩ := part
      cases node with
      | text =>
        obtain rfl : i = 0 := hindex
        exact (Nat.le_zero.1 hle).symm
      | reasoning =>
        obtain rfl : i = 1 := hindex
        exact le_antisymm ((hseen 0).1 (htext hkind)) hle
      | toolCall =>
        by_contra hne
        have hone := (hseen 1).1 (hthought hkind)
        exact absurd ((hseen _).1 (hindex.2 book.length hone (lt_of_le_of_ne hle (Ne.symm hne)))) (lt_irrefl _)
      | providerItem => exact hkind.elim
    have hkept : ∀ i, (last i).isSome ∨ part.nodeIndex = i → (update last part.nodeIndex (some part.activeNode) i).isSome := by
      rintro i (hi | rfl)
      · rw [congrFun hupdate i]
        simp [update, hi]
      · simp
    obtain ⟨t, book', ht, hrecorded⟩ := acceptPart_recorded h hlast hextends hnew
    rw [foldlM_cons, ht]
    refine ih hrecorded (acceptPart_holds hlast ht) (hupdate ▸ hnumbered) hrest (fun hor => hkept 0 ?_) fun hor => hkept 1 ?_
    · refine ((Bool.or_eq_true ..).mp hor).imp htext fun hisText => ?_
      obtain ⟨i, node⟩ := part
      cases node <;> first | exact hindex | cases hisText
    · refine ((Bool.or_eq_true ..).mp hor).imp hthought fun hisThought => ?_
      obtain ⟨i, node⟩ := part
      cases node <;> first | exact hindex | cases hisThought

theorem GeminiStream.Recorded.finish (h : s.Recorded book) (reason : Option FinishReason) :
    CompletedStream (s.events ++ s.nodes.map (fun e => .nodeDone e.1 e.2 []) ++ [.responseDone reason (s.nodes.map (·.2)) []])
      (s.nodes.map (·.2)) := by
  have hindices : s.nodes.map (·.1) = range book.length := by
    rw [GeminiStream.nodes, map_filterMap, h.order]
    refine (filterMap_congr fun i hi => ?_).trans (filterMap_some ..)
    obtain ⟨a, ha⟩ := isSome_iff_exists.1 ((h.active i).trans (by simpa using hi))
    simp [ha]
  have hkeeps : Keeps s.events s.nodes := by
    refine ⟨book, h.records, .of_eq hindices, fun e he => ?_⟩
    obtain ⟨i, -, hnode⟩ := mem_filterMap.1 he
    obtain ⟨a, ha, rfl⟩ := map_eq_some_iff.1 hnode
    exact h.held i a ha
  refine hkeeps.finish ?_ reason []
  rw [← pairwise_map (f := Prod.fst) (R := (· ≤ ·)), hindices]
  exact pairwise_le_range

/-- Every run whose parts arrive in steady order keeps the contract, unless no response was started. -/
theorem streamGemini_completed (ctx : GeminiContext) (sse : List ChatSseEvent) (r : GeminiReading)
    (hread : readGemini ctx sse = some r) (hcomplete : r.complete = true)
    (hsteady : SteadyFrom false false (fun _ => none) (r.parts.getD [])) :
    ∃ s, streamGemini ctx sse {} = some s ∧ (s.events = [] ∨ ∃ nodes, CompletedStream s.events nodes) := by
  rw [streamGemini_eq, hread, bind_some, GeminiReading.result, hcomplete]
  cases hparts : r.parts with
  | none => exact ⟨_, rfl, .inl rfl⟩
  | some parts =>
    have hnumbered := readGemini_numbered hread fun _ => false
    rw [hparts, getD_some] at hsteady hnumbered
    have hlast : (GeminiStream.startResponse ctx {}).Holds fun _ => none := fun _ => rfl
    have hstart : (GeminiStream.startResponse ctx {}).Recorded [] :=
      ⟨Records.nil.skip (fun _ => rfl) rfl rfl, rfl, fun i => by simp [GeminiStream.startResponse], fun i a ha => by cases ha⟩
    obtain ⟨t, book, ht, hrecorded⟩ := foldlM_acceptPart_recorded hstart hlast hnumbered hsteady
      (fun hno => by cases hno) fun hno => by cases hno
    have hstarted := (foldlM_acceptPart_frame ht).1
    simp only [isSome_some, if_true, getD_some, ht, map_some, some.injEq, exists_eq_left']
    refine .inr ⟨t.nodes.map (·.2), ?_⟩
    simp only [hstarted]
    exact hrecorded.finish _

def thoughtStream : List ChatSseEvent :=
  [.chunk (geminiChunk [.object [("text", .string "Hm"), ("thought", .bool true)]] [])]

def geminiPart (text thought : String) (calls : List String) : List JsonValue :=
  [.object [("text", .string text)], .object [("text", .string thought), ("thought", .bool true)]] ++
    calls.map fun name => .object [("functionCall", .object [("args", .object []), ("name", .string name)])]

theorem streamGemini_completed_sample :
    ∃ s, streamGemini sampleGemini [.chunk (geminiChunk (geminiPart "He" "Hm" ["f"]) []),
      .chunk (geminiChunk (geminiPart "Hello" "Hmm" ["f", "g"]) [])] {} = some s ∧
    (s.events = [] ∨ ∃ nodes, CompletedStream s.events nodes) := by
  apply streamGemini_completed sampleGemini _ { parts := some [⟨0, .text "He"⟩, ⟨1, .reasoning "Hm" ""⟩,
    ⟨2, .toolCall "f" "f" "\x7b\x7d"⟩, ⟨0, .text "Hello"⟩, ⟨1, .reasoning "Hmm" ""⟩, ⟨2, .toolCall "f" "f" "\x7b\x7d"⟩,
    ⟨3, .toolCall "g" "g" "\x7b\x7d"⟩] }
  · decide +kernel
  · rfl
  · have hhello : ∃ tail, "Hello" = "He" ++ tail := ⟨"llo", by decide⟩
    have hhmm : ∃ tail, "Hmm" = "Hm" ++ tail := ⟨"m", by decide⟩
    have hself : ∀ s : String, ∃ tail, s = s ++ tail := fun s => ⟨"", by simp⟩
    simp [SteadyFrom, ActiveNode.Extends, ActiveNode.isText, ActiveNode.isThought, hhello, hhmm, hself]

/-- A thought is node 1 even where no text comes before it. -/
theorem thoughtStream_misnumbered :
    (streamGemini sampleGemini thoughtStream {}).isSome ∧ ∀ s nodes, streamGemini sampleGemini thoughtStream {} = some s →
      s.events ≠ [] ∧ ¬ CompletedStream s.events nodes := by
  have hstarts : (streamGemini sampleGemini thoughtStream {}).map (starts ·.events) = some [1] := by decide +kernel
  refine ⟨by rw [← isSome_map, hstarts]; rfl, fun s nodes hs => ?_⟩
  rw [hs, map_some, some.injEq] at hstarts
  refine ⟨fun h => by simp [h] at hstarts, fun h => ?_⟩
  have hrange := hstarts.symm.trans h.starts
  cases hn : nodes.length with
  | zero => simp [hn] at hrange
  | succ n => simp [hn, range_succ_eq_map] at hrange

end Monoize.Urp
