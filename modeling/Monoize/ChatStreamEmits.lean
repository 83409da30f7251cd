import Monoize.ChatStreamShown

/-! What each function of the Chat encoder adds to the frames. -/

namespace Monoize.Urp

open ChatEncoder JsonMap

variable {delta : JsonMap} {path : ChatDeltaPath} {s : ChatEncoder}

variable {ctx : ChatEncoderContext} {limit : Option Nat}

/-- What the sends from one state to another show; nothing else changes that later sends depend on. -/
structure Emits (ctx : ChatEncoderContext) (limit : Option Nat) (s s' : ChatEncoder) (new : List Shown) : Prop where
  sends : ∃ sent, s'.sends = s.sends ++ sent ∧ Tells ctx limit sent new
  untyped : Untyped s'.pendingEnvelopeExtra
  finished : s'.finished = s.finished
  toolIdx : s'.toolIdx = s.toolIdx
  toolCalls : s'.toolCalls = s.toolCalls
  emitted : s'.emittedNodeIndices = s.emittedNodeIndices

namespace Emits

variable {s s' s'' : ChatEncoder} {new new' : List Shown}

theorem trans (h : Emits ctx limit s s' new) (h' : Emits ctx limit s' s'' new') : Emits ctx limit s s'' (new ++ new') where
  sends := by
    obtain ⟨sent, hsent, htells⟩ := h.sends
    obtain ⟨sent', hsent', htells'⟩ := h'.sends
    exact ⟨sent ++ sent', by rw [hsent', hsent, List.append_assoc], htells.append htells'⟩
  untyped := h'.untyped
  finished := h'.finished.trans h.finished
  toolIdx := h'.toolIdx.trans h.toolIdx
  toolCalls := h'.toolCalls.trans h.toolCalls
  emitted := h'.emitted.trans h.emitted

variable (h : Untyped s.pendingEnvelopeExtra)

include h

theorem refl : Emits ctx limit s s [] :=
  ⟨⟨[], by simp, .nil⟩, h, rfl, rfl, rfl, rfl⟩

theorem send {what : ChatSend} {shown : Shown}
    (hshows : ChatSend.Fits ctx limit what → ChatSend.Shows ctx limit what shown) : Emits ctx limit s (s.send what) [shown] :=
  ⟨⟨[what], rfl, .say hshows .nil⟩, h, rfl, rfl, rfl, rfl⟩

theorem silent {what : ChatSend}
    (hshows : ChatSend.Fits ctx limit what → ChatSend.Shows ctx limit what .nothing) : Emits ctx limit s (s.send what) [] :=
  ⟨⟨[what], rfl, .silent hshows .nil⟩, h, rfl, rfl, rfl, rfl⟩

theorem sendUntyped (hdelta : Untyped delta) : Emits ctx limit s (s.sendDelta ctx delta) [] := by
  apply silent h
  intro _
  have hcontent : (delta.strMember "content").getD "" = "" := by
    rw [strMember, hdelta.1]
    rfl
  have hcalls : deltaCalls delta = (none : Option WireCall).toList := by
    rw [deltaCalls, hdelta.2]
    rfl
  exact .frame rfl rfl hcontent hcalls

end Emits

/-! A place of the delta is written from what stands there alone. -/

theorem member_modifyObject (m : JsonMap) (key k : String) (f : JsonMap → JsonMap) :
    member (modifyObject m key f) k = if key = k then (m.member k).map fun
      | .object obj => .object (f obj)
      | v => v else m.member k := by
  unfold modifyObject
  split
  · rename_i obj hobj
    rw [member_insert]
    split
    · rename_i heq
      subst heq
      rw [hobj]
      rfl
    · rfl
  · rename_i hnot
    split
    · rename_i heq
      subst heq
      cases hm : m.member key with
      | none => rfl
      | some v =>
        cases v with
        | object obj => exact absurd hm (hnot obj)
        | _ => rfl
    · rfl

theorem member_modifyFirst (m : JsonMap) (key k : String) (f : JsonMap → JsonMap) :
    member (modifyFirst m key f) k = if key = k then (m.member k).map fun
      | .array (.object obj :: rest) => .array (.object (f obj) :: rest)
      | v => v else m.member k := by
  unfold modifyFirst
  split
  · rename_i obj rest hobj
    rw [member_insert]
    split
    · rename_i heq
      subst heq
      rw [hobj]
      rfl
    · rfl
  · rename_i hnot
    split
    · rename_i heq
      subst heq
      cases hm : m.member key with
      | none => rfl
      | some v =>
        rw [Option.map_some]
        split
        · rename_i obj rest
          exact absurd hm (hnot obj rest)
        · rfl
    · rfl

theorem ChatDeltaPath.patch_member_congr (path : ChatDeltaPath) {delta' : JsonMap} {key : String}
    (h : delta.member key = delta'.member key) (part : String) :
    member (path.patch delta part) key = member (path.patch delta' part) key := by
  cases path
  all_goals simp only [patch, member_insert, member_modifyFirst, member_modifyObject, h]

def SameTyped (delta delta' : JsonMap) : Prop :=
  delta.member "content" = delta'.member "content" ∧
    delta.member "tool_calls" = delta'.member "tool_calls"

namespace SameTyped

variable {delta delta' : JsonMap} (h : SameTyped delta delta')

include h

theorem content : delta.strMember "content" = delta'.strMember "content" := by
  rw [strMember, h.1]
  rfl

theorem calls : deltaCalls delta = deltaCalls delta' := by
  rw [deltaCalls, h.2]
  rfl

theorem patch (path : ChatDeltaPath) (part : String) : SameTyped (path.patch delta part) (path.patch delta' part) :=
  ⟨path.patch_member_congr h.1 part, path.patch_member_congr h.2 part⟩

end SameTyped

section Extras

variable {s : ChatEncoder} (hs : Untyped s.pendingEnvelopeExtra) {extra : JsonMap} (hextra : Untyped extra) (delta : JsonMap)

include hs hextra

theorem chatDeltaWithRawExtras_sameTyped : SameTyped (chatDeltaWithRawExtras delta extra s).1 delta :=
  have hall := hs.extend hextra
  ⟨member_merge (.inr hall.1), member_merge (.inr hall.2)⟩

end Extras

theorem Emits.chatDeltaWithRawExtras (s : ChatEncoder) (delta extra : JsonMap) :
    Emits ctx limit s (Urp.chatDeltaWithRawExtras delta extra s).2 [] :=
  ⟨⟨[], by simp [Urp.chatDeltaWithRawExtras], .nil⟩, .nil, rfl, rfl, rfl, rfl⟩

section Send

variable {s : ChatEncoder} (hs : Untyped s.pendingEnvelopeExtra) {delta extra : JsonMap} (hextra : Untyped extra)

include hs hextra

theorem Emits.sendCall {call : WireCall} (hcontent : (delta.strMember "content").getD "" = "")
    (hcalls : deltaCalls delta = [call]) :
    Emits ctx limit s (sendDelta ctx (Urp.chatDeltaWithRawExtras delta extra s).1
      (Urp.chatDeltaWithRawExtras delta extra s).2) [⟨"", some call⟩] := by
  have hsame := chatDeltaWithRawExtras_sameTyped hs hextra delta
  refine (Emits.chatDeltaWithRawExtras s delta extra).trans (Emits.send .nil fun _ => ?_)
  exact .frame rfl rfl (by rw [hsame.content, hcontent]) (by rw [hsame.calls, hcalls]; rfl)

theorem Emits.sendAside (hcontent : (delta.strMember "content").getD "" = "") (hcalls : deltaCalls delta = []) :
    Emits ctx limit s (sendDelta ctx (Urp.chatDeltaWithRawExtras delta extra s).1
      (Urp.chatDeltaWithRawExtras delta extra s).2) [] := by
  have hsame := chatDeltaWithRawExtras_sameTyped hs hextra delta
  refine (Emits.chatDeltaWithRawExtras s delta extra).trans (Emits.silent .nil fun _ => ?_)
  exact .frame rfl rfl (by rw [hsame.content, hcontent]) (by rw [hsame.calls, hcalls]; rfl)

theorem Emits.sendText {content : String} {shown : Shown}
    (hshows : ∀ (chatId : String) (created : Int) (delta' : JsonMap), SameTyped delta' delta →
      ChatSend.Fits ctx limit (.text chatId created delta' path content) →
      ChatSend.Shows ctx limit (.text chatId created delta' path content) shown) :
    Emits ctx limit s (sendText (Urp.chatDeltaWithRawExtras delta extra s).1 content path
      (Urp.chatDeltaWithRawExtras delta extra s).2) [shown] :=
  (Emits.chatDeltaWithRawExtras s delta extra).trans
    (Emits.send .nil (hshows _ _ _ (chatDeltaWithRawExtras_sameTyped hs hextra delta)))

theorem Emits.sendTextAside {content : String}
    (hcontent : ∀ part, (strMember (path.patch delta part) "content").getD "" = "")
    (hcalls : ∀ part, deltaCalls (path.patch delta part) = []) :
    Emits ctx limit s (ChatEncoder.sendText (Urp.chatDeltaWithRawExtras delta extra s).1 content path
      (Urp.chatDeltaWithRawExtras delta extra s).2) [] := by
  have hsame := chatDeltaWithRawExtras_sameTyped hs hextra delta
  refine (Emits.chatDeltaWithRawExtras s delta extra).trans (Emits.silent .nil fun _ => ?_)
  apply ChatSend.Shows.aside
  · intro part
    rw [(hsame.patch path part).content, hcontent]
  · intro part
    rw [(hsame.patch path part).calls, hcalls]

end Send

/-! Frames that show nothing. -/

def ReasoningQuiet (ctx : ChatEncoderContext) (limit : Option Nat) (s : ChatEncoder) (acc : JsonMap × ChatEncoder) : Prop :=
  Untyped acc.1 ∧ Emits ctx limit s acc.2 []

variable {acc : JsonMap × ChatEncoder}

theorem ReasoningQuiet.text (h : ReasoningQuiet ctx limit s acc) (text : Option String)
    (hcontent : ∀ part, (strMember (path.patch delta part) "content").getD "" = "")
    (hcalls : ∀ part, deltaCalls (path.patch delta part) = []) :
    ReasoningQuiet ctx limit s (emitReasoningText delta text path acc) := by
  unfold emitReasoningText
  split
  · exact h
  · exact ⟨.nil, h.2.trans (Emits.sendTextAside h.2.untyped h.1 hcontent hcalls)⟩

theorem ReasoningQuiet.rest (h : ReasoningQuiet ctx limit s acc) :
    Emits ctx limit s (if acc.1 = [] ∧ acc.2.pendingEnvelopeExtra = [] then acc.2
      else sendDelta ctx (chatDeltaWithRawExtras [] acc.1 acc.2).1 (chatDeltaWithRawExtras [] acc.1 acc.2).2) [] := by
  split
  · exact h.2
  · exact h.2.trans (Emits.sendAside h.2.untyped h.1 rfl rfl)

/-! Frames that show content or a call. -/

def callShown (legacy : Bool) (call : WireCall) : List Shown := if legacy then [] else [⟨"", some call⟩]

variable {s : ChatEncoder} (hs : Untyped s.pendingEnvelopeExtra)

include hs

theorem mergePendingEnvelopeExtra_emits {extra : JsonMap} (hextra : Untyped extra) :
    Emits ctx limit s (mergePendingEnvelopeExtra extra s) [] :=
  ⟨⟨[], by simp [mergePendingEnvelopeExtra], .nil⟩, hs.extend (hextra.filter _), rfl, rfl, rfl, rfl⟩

theorem seeToolCall_emits (legacy : Bool) : Emits ctx limit s (s.seeToolCall legacy) [] := by
  cases legacy
  all_goals exact ⟨⟨[], by simp [seeToolCall], .nil⟩, hs, rfl, rfl, rfl, rfl⟩

theorem emitChatChoiceExtraChunk_emits (extra : JsonMap) :
    Emits ctx limit s (emitChatChoiceExtraChunk ctx extra s) [] := by
  unfold emitChatChoiceExtraChunk
  split
  · exact .refl hs
  · apply Emits.silent hs
    intro _
    exact .frame (member_merge (.inl rfl)) (member_merge (.inl rfl)) rfl rfl

theorem emitChatProviderContentPart_emits (body : JsonValue) :
    Emits ctx limit s (emitChatProviderContentPart ctx body s) [] := Emits.sendAside hs .nil rfl rfl

theorem emitReasoningDelta_emits (content : Option String)
    (encrypted : Option JsonValue) (summary source : Option String) {extra : JsonMap}
    (hextra : Untyped (nativeChatDeltaExtra extra)) :
    Emits ctx limit s (emitReasoningDelta ctx content encrypted summary source extra s) [] := by
  unfold emitReasoningDelta
  dsimp only
  split
  · exact Emits.sendAside hs hextra rfl rfl
  apply ReasoningQuiet.rest
  have h₀ : ReasoningQuiet ctx limit s (nativeChatDeltaExtra extra, s) := ⟨hextra, .refl hs⟩
  split
  all_goals
    refine ReasoningQuiet.text ?_ _ (fun _ => rfl) (fun _ => rfl)
    refine ReasoningQuiet.text ?_ _ (fun _ => rfl) (fun _ => rfl)
    refine ReasoningQuiet.text ?_ _ (fun _ => rfl) (fun _ => rfl)
    exact h₀.text _ (fun _ => rfl) (fun _ => rfl)

theorem sendContent_emits {extra : JsonMap} (hextra : Untyped (nativeChatDeltaExtra extra)) (content : String) :
    Emits ctx limit s (sendText (chatDeltaWithExtras [("content", .string "")] extra s).1 content .content
      (chatDeltaWithExtras [("content", .string "")] extra s).2) [⟨content, none⟩] := by
  apply Emits.sendText hs hextra
  intro chatId created delta hsame hfits
  apply ChatSend.Shows.said hfits
  · intro part
    rw [(hsame.patch .content part).content]
    rfl
  · intro part
    rw [(hsame.patch .content part).calls]
    rfl

theorem emitToolCallHeader_emits {call : ChatToolCall}
    (hsent : call.headerSent = false) {extra : JsonMap} (hextra : Untyped (nativeChatDeltaExtra extra)) :
    (emitToolCallHeader ctx call extra s).1 = { call with headerSent := true } ∧
      Emits ctx limit s (emitToolCallHeader ctx call extra s).2
        (callShown call.legacyFunctionCall ⟨call.index, call.callId, call.name, ""⟩) := by
  unfold emitToolCallHeader
  rw [if_neg (by simp [hsent])]
  refine ⟨rfl, ?_⟩
  obtain ⟨toolType, callId, name, index, legacy, headerSent, argumentsStreamed⟩ := call
  cases legacy with
  | true => exact Emits.sendAside hs hextra rfl rfl
  | false =>
    apply Emits.sendCall hs hextra
    · cases toolType <;> rfl
    · cases toolType <;> rfl

theorem emitToolCallArgumentsDelta_emits (call : ChatToolCall)
    (arguments : String) {extra : JsonMap} (hextra : Untyped (nativeChatDeltaExtra extra)) :
    Emits ctx limit s (emitToolCallArgumentsDelta call arguments extra s)
      (callShown call.legacyFunctionCall ⟨call.index, "", "", arguments⟩) := by
  obtain ⟨toolType, callId, name, index, legacy, headerSent, argumentsStreamed⟩ := call
  cases legacy with
  | true => exact Emits.sendTextAside hs hextra (fun _ => rfl) fun _ => rfl
  | false =>
    apply Emits.sendText hs hextra
    intro chatId created delta hsame hfits
    apply ChatSend.Shows.arguments hfits
    · intro part
      rw [(hsame.patch _ part).content]
      cases toolType <;> rfl
    · intro part
      have hpart : ((some part).filter (· ≠ "")).getD "" = part := by
        by_cases hempty : part = "" <;> simp [Option.filter, hempty]
      rw [(hsame.patch _ part).calls]
      nth_rewrite 2 [← hpart]
      cases toolType <;> rfl

end Monoize.Urp
