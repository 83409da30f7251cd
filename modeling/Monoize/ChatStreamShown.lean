import Monoize.ChatStreamDemultiplex
import Monoize.ChatStreamEncoder

/-! What a client reads off the frames of the Chat encoder. -/

namespace Monoize.Urp

open SseSplit List Option Function JsonMap ChatSend ChatFrame

variable {m : JsonMap} {key : String}

/-! The client's reading. -/

def wireIndex (f : JsonMap) : Nat :=
  match f.member "index" with
  | some (.int n) => n.toNat
  | _ => 0

structure WireCall where
  index : Nat
  (id name arguments : String)

def wireCall (f : JsonMap) : WireCall := ⟨wireIndex f, toolCallOwnId f, toolCallName f, fragmentArguments f⟩

namespace ChatFrame

def content : ChatFrame → String
  | .data value => chunkContent value
  | .done => ""

def calls : ChatFrame → List WireCall
  | .data value => (toolFragments value).map wireCall
  | .done => []

def finish : ChatFrame → Option JsonValue
  | .data value => ((chatChoice value).bind (JsonMap.member · "finish_reason")).filter fun v => ¬ v.isNull
  | .done => none

def isDone : ChatFrame → Bool
  | .data _ => false
  | .done => true

end ChatFrame

def assembledCall (k : Nat) (calls : List WireCall) : String × String × String :=
  (String.join ((calls.filter (·.index = k)).map (·.id)), String.join ((calls.filter (·.index = k)).map (·.name)),
    String.join ((calls.filter (·.index = k)).map (·.arguments)))

/-! Extras without the fields that the encoder writes. -/

def Untyped (extra : JsonMap) : Prop := extra.member "content" = none ∧ extra.member "tool_calls" = none

theorem member_extend_of_none {n : JsonMap} (h : n.member key = none) : member (m.extend n) key = m.member key := by
  unfold JsonMap.extend
  induction n generalizing m with
  | nil => rfl
  | cons e n ih =>
    rw [member_cons] at h
    split at h
    · cases h
    · rename_i hne
      rw [foldl_cons, ih h, member_insert, if_neg hne]

theorem member_filter_none (h : m.member key = none) (p : String × JsonValue → Bool) :
    member (m.filter p) key = none := by
  unfold member at h ⊢
  rw [map_eq_none_iff, find?_eq_none] at h ⊢
  intro e he
  exact h e (mem_of_mem_filter he)

theorem Untyped.nil : Untyped [] := ⟨rfl, rfl⟩

theorem Untyped.extend {n : JsonMap} (hm : Untyped m) (hn : Untyped n) : Untyped (m.extend n) :=
  ⟨(member_extend_of_none hn.1).trans hm.1, (member_extend_of_none hn.2).trans hm.2⟩

theorem Untyped.filter (h : Untyped m) (p : String × JsonValue → Bool) : Untyped (m.filter p) :=
  ⟨member_filter_none h.1 p, member_filter_none h.2 p⟩

theorem member_merge {delta extra : JsonMap} (h : (delta.member key).isSome ∨ extra.member key = none) :
    member (mergeChatDeltaExtraPreservingTyped delta extra) key = delta.member key := by
  unfold mergeChatDeltaExtraPreservingTyped
  induction extra generalizing delta with
  | nil => rfl
  | cons e extra ih =>
    have hstep : member (if ¬ isInternalExtraKey e.1 ∧ (delta.member e.1).isNone then
        delta.insert e.1 e.2 else delta) key = delta.member key := by
      split
      · rename_i hnew
        rw [member_insert]
        split
        · rename_i heq
          subst heq
          rcases h with h | h
          · rw [isNone_iff_eq_none.mp hnew.2] at h
            cases h
          · rw [member_cons, if_pos rfl] at h
            cases h
        · rfl
      · rfl
    rw [foldl_cons, ih, hstep]
    rw [hstep]
    rcases h with h | h
    · exact .inl h
    rw [member_cons] at h
    split at h
    · cases h
    · exact .inr h

/-! Reading a chunk of the encoder. -/

variable {ctx : ChatEncoderContext} {chatId : String} {created : Int}

def deltaCalls (delta : JsonMap) : List WireCall :=
  ((((delta.member "tool_calls").bind JsonValue.asArray).getD []).filterMap JsonValue.asObject).map wireCall

theorem chatChoice_chunk (choice : JsonMap) : chatChoice (chatCompletionChunk ctx chatId created choice) = some choice := rfl

theorem chunk_reading {choice delta : JsonMap} (h : choice.member "delta" = some (.object delta)) :
    (data (chatCompletionChunk ctx chatId created choice)).content = (delta.strMember "content").getD "" ∧
      (data (chatCompletionChunk ctx chatId created choice)).calls = deltaCalls delta := by
  have hdelta : chatDelta (chatCompletionChunk ctx chatId created choice) = .object delta := by
    have hread : chatDelta (chatCompletionChunk ctx chatId created choice) = (choice.member "delta").getD .null := rfl
    rw [hread, h]
    rfl
  constructor
  · rw [content, chunkContent, hdelta]
    rfl
  · rw [calls, toolFragments, deltaToolCalls, hdelta]
    rfl

theorem chunk_finish {choice : JsonMap} (h : choice.member "finish_reason" = some .null) :
    (data (chatCompletionChunk ctx chatId created choice)).finish = none := by
  rw [finish, chatChoice_chunk, bind_some, h]
  rfl

/-! What a send shows. -/

structure Shown where
  prose : String
  call : Option WireCall

def Shown.nothing : Shown := ⟨"", none⟩

def ChatSend.Fits (ctx : ChatEncoderContext) (limit : Option Nat) : ChatSend → Prop
  | .text chatId created delta path _ => ∀ l, limit = some l → sseDataLineLength
      (chatCompletionChunk ctx chatId created (chatChoiceOf (path.patch delta "") .null)).render ≤ l
  | _ => True

instance (ctx : ChatEncoderContext) (limit : Option Nat) : (send : ChatSend) → Decidable (send.Fits ctx limit)
  | .text .. => inferInstanceAs (Decidable (∀ l ∈ limit, _ ≤ l))
  | .frame _ | .done => inferInstanceAs (Decidable True)

structure ChatSend.Shows (ctx : ChatEncoderContext) (limit : Option Nat) (send : ChatSend) (shown : Shown) : Prop where
  prose : String.join ((send.frames ctx limit).map ChatFrame.content) = shown.prose
  silent : shown.call = none → (send.frames ctx limit).flatMap ChatFrame.calls = []
  speaks : ∀ call, shown.call = some call → (send.frames ctx limit).flatMap ChatFrame.calls ≠ [] ∧
    (∀ c ∈ (send.frames ctx limit).flatMap ChatFrame.calls, c.index = call.index) ∧
    assembledCall call.index ((send.frames ctx limit).flatMap ChatFrame.calls) = (call.id, call.name, call.arguments)
  pending : ∀ f ∈ send.frames ctx limit, f.finish = none ∧ f.isDone = false

theorem ChatSend.Shows.frame {limit : Option Nat} {choice delta : JsonMap} {call : Option WireCall}
    (hdelta : choice.member "delta" = some (.object delta)) (hfinish : choice.member "finish_reason" = some .null)
    (hcontent : (delta.strMember "content").getD "" = "") (hcalls : deltaCalls delta = call.toList) :
    Shows ctx limit (.frame (chatCompletionChunk ctx chatId created choice)) ⟨"", call⟩ := by
  obtain ⟨hprose, hread⟩ := @chunk_reading ctx chatId created _ _ hdelta
  constructor
  · simp [frames, hprose, hcontent]
  · rintro rfl
    simp [frames, hread, hcalls]
  · rintro c rfl
    simp [frames, hread, hcalls, assembledCall]
  · intro f hf
    rw [frames, mem_singleton] at hf
    subst hf
    exact ⟨chunk_finish hfinish, rfl⟩

section Text

variable {limit : Option Nat} {delta : JsonMap} {path : ChatDeltaPath} {content : String}

theorem ChatSend.frames_text_reading (f : ChatFrame)
    (hf : f ∈ (ChatSend.text chatId created delta path content).frames ctx limit) :
    f.finish = none ∧ f.isDone = false := by
  rw [frames, List.mem_map] at hf
  obtain ⟨part, -, rfl⟩ := hf
  exact ⟨chunk_finish rfl, rfl⟩

theorem ChatSend.frames_text_content {read : String → String}
    (h : ∀ part, (strMember (path.patch delta part) "content").getD "" = read part) :
    ((ChatSend.text chatId created delta path content).frames ctx limit).map ChatFrame.content =
      (splitByExactLimit (fun _ part => sseDataLineLength
        (chatCompletionChunk ctx chatId created (chatChoiceOf (path.patch delta part) .null)).render) limit
          content).map read := by
  rw [frames, List.map_map]
  apply List.map_congr_left
  intro part _
  rw [comp_apply, (chunk_reading rfl).1, h]

theorem ChatSend.frames_text_calls {read : String → List WireCall}
    (h : ∀ part, deltaCalls (path.patch delta part) = read part) :
    ((text chatId created delta path content).frames ctx limit).flatMap calls =
      (splitByExactLimit (fun _ part => sseDataLineLength
        (chatCompletionChunk ctx chatId created (chatChoiceOf (path.patch delta part) .null)).render) limit
          content).flatMap read := by
  rw [frames, flatMap_map]
  apply flatMap_congr
  intro part _
  rw [(chunk_reading rfl).2, h]

theorem join_map_empty {α : Type} (l : List α) : String.join (l.map fun _ => "") = "" := by
  induction l with
  | nil => rfl
  | cons a l ih => rw [map_cons, String.join_cons, ih]; rfl

theorem ChatSend.Shows.said (hfits : ChatSend.Fits ctx limit (.text chatId created delta path content))
    (hcontent : ∀ part, strMember (path.patch delta part) "content" = some part)
    (hcalls : ∀ part, deltaCalls (path.patch delta part) = []) :
    Shows ctx limit (.text chatId created delta path content) ⟨content, none⟩ := by
  constructor
  · have hread : ∀ part, (strMember (path.patch delta part) "content").getD "" = id part := by
      intro part
      rw [hcontent]
      rfl
    rw [frames_text_content hread, List.map_id]
    exact join_splitByExactLimit (fun l hl => hfits l hl) content
  · intro _
    rw [frames_text_calls hcalls]
    simp
  · simp
  · exact frames_text_reading

theorem ChatSend.Shows.aside (hcontent : ∀ part, (strMember (path.patch delta part) "content").getD "" = "")
    (hcalls : ∀ part, deltaCalls (path.patch delta part) = []) :
    Shows ctx limit (.text chatId created delta path content) .nothing := by
  constructor
  · rw [frames_text_content hcontent, join_map_empty]
    rfl
  · intro _
    rw [frames_text_calls hcalls]
    simp
  · simp [Shown.nothing]
  · exact frames_text_reading

theorem ChatSend.Shows.arguments {k : Nat} (hfits : ChatSend.Fits ctx limit (.text chatId created delta path content))
    (hcontent : ∀ part, (strMember (path.patch delta part) "content").getD "" = "")
    (hcalls : ∀ part, deltaCalls (path.patch delta part) = [⟨k, "", "", part⟩]) :
    Shows ctx limit (.text chatId created delta path content) ⟨"", some ⟨k, "", "", content⟩⟩ := by
  have hread := @frames_text_calls ctx chatId created limit delta path content _ hcalls
  constructor
  · rw [frames_text_content hcontent, join_map_empty]
  · simp
  · rintro c hc
    cases hc
    rw [hread, ← map_eq_flatMap]
    refine ⟨?_, ?_, ?_⟩
    · simp [splitByExactLimit_ne_nil]
    · simp
    · have hall : ∀ l : List String, (l.map fun part => (⟨k, "", "", part⟩ : WireCall)).filter (·.index = k) =
          l.map fun part => ⟨k, "", "", part⟩ := by
        intro l
        apply filter_eq_self.mpr
        simp
      simp only [assembledCall, hall, List.map_map, Function.comp_def, join_map_empty, List.map_id_fun', id_eq]
      congr 2
      exact join_splitByExactLimit (fun l hl => hfits l hl) content
  · exact frames_text_reading

end Text

inductive Tells (ctx : ChatEncoderContext) (limit : Option Nat) : List ChatSend → List Shown → Prop
  | nil : Tells ctx limit [] []
  | silent {send sends new} (h : ChatSend.Fits ctx limit send → ChatSend.Shows ctx limit send .nothing)
      (rest : Tells ctx limit sends new) : Tells ctx limit (send :: sends) new
  | say {send sends x new} (h : ChatSend.Fits ctx limit send → ChatSend.Shows ctx limit send x)
      (rest : Tells ctx limit sends new) : Tells ctx limit (send :: sends) (x :: new)

theorem Tells.append {limit : Option Nat} {sends sends' : List ChatSend} {new new' : List Shown} (h : Tells ctx limit sends new)
    (h' : Tells ctx limit sends' new') : Tells ctx limit (sends ++ sends') (new ++ new') := by
  induction h with
  | nil => exact h'
  | silent h _ ih => exact .silent h ih
  | say h _ ih => exact .say h ih

/-! The frames of sends that tell a trace, whose entries are labelled with nodes. -/

theorem assembledCall_append (k : Nat) (xs ys : List WireCall) : assembledCall k (xs ++ ys) =
    ((assembledCall k xs).1 ++ (assembledCall k ys).1, (assembledCall k xs).2.1 ++ (assembledCall k ys).2.1,
      (assembledCall k xs).2.2 ++ (assembledCall k ys).2.2) := by
  simp [assembledCall, String.join_append]

theorem assembledCall_of_absent {k : Nat} {calls : List WireCall} (h : ∀ c ∈ calls, c.index ≠ k) :
    assembledCall k calls = ("", "", "") := by
  have hnone : calls.filter (·.index = k) = [] := filter_eq_nil_iff.mpr (by simpa using h)
  simp [assembledCall, hnone]

def proseOf (i : Nat) (trace : List (Nat × Shown)) : String := String.join ((trace.filter (·.1 = i)).map (·.2.prose))

theorem proseOf_append (i : Nat) (xs ys : List (Nat × Shown)) : proseOf i (xs ++ ys) = proseOf i xs ++ proseOf i ys := by
  simp [proseOf, String.join_append]

namespace Tells

variable {limit : Option Nat} {sends : List ChatSend} {new : List Shown}

theorem pending (h : Tells ctx limit sends new) (hfits : ∀ send ∈ sends, send.Fits ctx limit) :
    ∀ f ∈ sends.flatMap (frames ctx limit), f.finish = none ∧ f.isDone = false := by
  intro f hf
  induction h with
  | nil => cases hf
  | silent h _ ih | say h _ ih =>
    rcases mem_append.mp (flatMap_cons ▸ hf) with hf | hf
    · exact (h (hfits _ (mem_cons_self ..))).pending f hf
    · exact ih (fun send hs => hfits send (mem_cons_of_mem _ hs)) hf

theorem assembled (h : Tells ctx limit sends new) (hfits : ∀ send ∈ sends, send.Fits ctx limit) (k : Nat) :
    assembledCall k ((sends.flatMap (frames ctx limit)).flatMap calls) =
        assembledCall k (new.filterMap (·.call)) ∧
      ((∃ c ∈ (sends.flatMap (frames ctx limit)).flatMap calls, c.index = k) ↔
        ∃ c ∈ new.filterMap (·.call), c.index = k) := by
  have hskip : ∀ {send : ChatSend} {sends : List ChatSend} {x : Shown}, send.Shows ctx limit x → x.call = none →
      ((send :: sends).flatMap (frames ctx limit)).flatMap calls =
        (sends.flatMap (frames ctx limit)).flatMap calls := by
    intro send sends x hshows hx
    rw [flatMap_cons, flatMap_append, hshows.silent hx, nil_append]
  induction h with
  | nil => simp
  | silent h _ ih =>
    rw [hskip (h (hfits _ (mem_cons_self ..))) rfl]
    exact ih fun send hs => hfits send (mem_cons_of_mem _ hs)
  | @say send sends x new h _ ih =>
    have hshows := h (hfits _ (mem_cons_self ..))
    have ih := ih fun send hs => hfits send (mem_cons_of_mem _ hs)
    cases hx : x.call with
    | none =>
      rw [hskip hshows hx, filterMap_cons_none hx]
      exact ih
    | some call =>
      obtain ⟨hne, hindex, hasm⟩ := hshows.speaks call hx
      rw [filterMap_cons_some hx, flatMap_cons, flatMap_append]
      constructor
      · rw [assembledCall_append, ih.1, ← singleton_append, assembledCall_append]
        by_cases hk : call.index = k
        · subst hk
          rw [hasm]
          simp [assembledCall]
        · rw [assembledCall_of_absent fun c hmem => by rw [hindex c hmem]; exact hk,
            show assembledCall k [call] = ("", "", "") from assembledCall_of_absent (by simpa using hk)]
      · obtain ⟨c₀, hc₀⟩ := exists_mem_of_ne_nil _ hne
        have hhead : (∃ c ∈ (send.frames ctx limit).flatMap calls, c.index = k) ↔ call.index = k :=
          ⟨fun ⟨c, hc, hk⟩ => hindex c hc ▸ hk, fun hk => ⟨c₀, hc₀, (hindex c₀ hc₀).trans hk⟩⟩
        simp only [mem_append, mem_cons, or_and_right, exists_or, exists_eq_left, hhead, ih.2]

theorem labelled {trace : List (Nat × Shown)} (h : Tells ctx limit sends (trace.map (·.2)))
    (hfits : ∀ send ∈ sends, send.Fits ctx limit) : ∃ labelled : List (Nat × ChatFrame),
      labelled.map (·.2) = sends.flatMap (frames ctx limit) ∧
      (∀ i, String.join ((labelled.filter (·.1 = i)).map (·.2.content)) = proseOf i trace) ∧
      ∀ e ∈ labelled, e.2.content ≠ "" → ∃ x ∈ trace, x.1 = e.1 ∧ x.2.prose ≠ "" := by
  generalize hnew : trace.map (·.2) = new at h
  have hframes : ∀ (send : ChatSend) (x : Nat × Shown), send.Shows ctx limit x.2 → ∀ i,
      String.join ((((send.frames ctx limit).map (x.1, ·)).filter (·.1 = i)).map (·.2.content)) = proseOf i [x] := by
    intro send x hshows i
    by_cases hi : x.1 = i
    · have hall : ((send.frames ctx limit).map (x.1, ·)).filter (·.1 = i) = (send.frames ctx limit).map (x.1, ·) :=
        filter_eq_self.mpr (by simp [hi])
      rw [hall, List.map_map, show proseOf i [x] = x.2.prose by simp [proseOf, hi], ← hshows.prose]
      rfl
    · have hnone : ((send.frames ctx limit).map (x.1, ·)).filter (·.1 = i) = [] := filter_eq_nil_iff.mpr (by simp [hi])
      simp [hnone, proseOf, hi]
  have hspeaks : ∀ (send : ChatSend) (x : Nat × Shown), send.Shows ctx limit x.2 →
      ∀ e ∈ (send.frames ctx limit).map (x.1, ·), e.2.content ≠ "" → x.1 = e.1 ∧ x.2.prose ≠ "" := by
    intro send x hshows e he hne
    obtain ⟨f, hf, rfl⟩ := mem_map.mp he
    refine ⟨rfl, fun hempty => hne ?_⟩
    have hjoin := hshows.prose.trans hempty
    rw [String.join_eq, String.ofList_eq_empty_iff, flatten_eq_nil_iff] at hjoin
    simpa using hjoin _ (mem_map_of_mem (mem_map_of_mem hf))
  induction h generalizing trace with
  | nil => exact ⟨[], rfl, fun i => by rw [map_eq_nil_iff.mp hnew]; rfl, by simp⟩
  | @silent send sends new h _ ih =>
    have hshows := h (hfits _ (mem_cons_self ..))
    obtain ⟨labelled, hmap, hcontent, hlabels⟩ := ih (fun send hs => hfits send (mem_cons_of_mem _ hs)) hnew
    refine ⟨(send.frames ctx limit).map (0, ·) ++ labelled, by simp [hmap], ?_, ?_⟩
    · intro i
      rw [filter_append, map_append, String.join_append, hframes send (0, .nothing) hshows i, hcontent,
        show proseOf i [(0, Shown.nothing)] = "" by
          by_cases hi : 0 = i <;> simp [proseOf, hi, Shown.nothing], String.empty_append]
    · intro e he hne
      rcases mem_append.mp he with he | he
      · exact absurd rfl (hspeaks send (0, .nothing) hshows e he hne).2
      · exact hlabels e he hne
  | @say send sends x new h _ ih =>
    have hshows := h (hfits _ (mem_cons_self ..))
    obtain ⟨y, trace, rfl, rfl, htail⟩ := map_eq_cons_iff.mp hnew
    obtain ⟨labelled, hmap, hcontent, hlabels⟩ := ih (fun send hs => hfits send (mem_cons_of_mem _ hs)) htail
    refine ⟨(send.frames ctx limit).map (y.1, ·) ++ labelled, by simp [hmap], ?_, ?_⟩
    · intro i
      rw [filter_append, map_append, String.join_append, hframes send y hshows i, hcontent, ← proseOf_append]
      rfl
    · intro e he hne
      rcases mem_append.mp he with he | he
      · exact ⟨y, mem_cons_self .., hspeaks send y hshows e he hne⟩
      · obtain ⟨x, hx, hxe⟩ := hlabels e he hne
        exact ⟨x, mem_cons_of_mem _ hx, hxe⟩

end Tells

/-! Frames of limited length. -/

/-- Nothing is lost and lines keep to the limit exactly where the line without content does. -/
theorem splitJsonByExactLimit_lossless_iff (template : JsonValue) (content : String) (limit : Option Nat)
    (dataLineLen : JsonValue → Nat → Nat) (patch : JsonValue → String → JsonValue) (read : JsonValue → String)
    (hread : ∀ part, read (patch template part) = part) :
    (String.join ((splitJsonByExactLimit template content limit dataLineLen patch).map read) = content ∧
      ∀ l, limit = some l → (∀ i < content.toList.length, ∀ c ∈ content.toList,
          dataLineLen (patch template (String.ofList [c])) i ≤ l) →
        ∀ (i : Nat) (frame : JsonValue), (splitJsonByExactLimit template content limit dataLineLen patch)[i]? = some frame →
          dataLineLen frame i ≤ l) ↔
    ∀ l, limit = some l → dataLineLen (patch template "") 0 ≤ l := by
  have hparts : ∀ parts : List String, (parts.map (patch template)).map read = parts := fun parts => by
    simp [comp_def, hread]
  unfold splitJsonByExactLimit
  rw [hparts]
  constructor
  · rintro ⟨hjoin, hbound⟩ l rfl
    by_contra hlong
    simp only [splitByExactLimit, if_pos (Nat.lt_of_not_le hlong)] at hjoin hbound
    exact hlong (hbound l rfl (by simp [← hjoin]) 0 _ rfl)
  · intro hwrapper
    refine ⟨join_splitByExactLimit hwrapper content, ?_⟩
    rintro l rfl hsingle i frame hframe
    rw [splitByExactLimit, if_neg (Nat.not_lt.2 (hwrapper l rfl)), getElem?_map, map_eq_some_iff] at hframe
    obtain ⟨part, hpart, rfl⟩ := hframe
    split at hpart
    · obtain ⟨rfl, rfl⟩ : i = 0 ∧ part = "" := by simpa [getElem?_singleton, eq_comm] using hpart
      exact hwrapper l rfl
    · have hfits := loop_fits (fun k hk c hc => by simpa using hsingle k hk c hc) hpart
      simpa using hfits

theorem splitJsonByExactLimit_lossless_sample :
    splitWrappedResponsesJsonStringField 9 "response.output_text.delta" (.object []) "delta" "abcd" (some 76) =
      ["ab", "c", "d"].map (fun part => .object [("delta", .string part)]) ∧
    String.join ((splitWrappedResponsesJsonStringField 9 "response.output_text.delta" (.object []) "delta" "abcd" (some 76)).map
      fun frame => (frame.getStr "delta").getD "") = "abcd" := by
  refine ⟨by decide +kernel, ((splitJsonByExactLimit_lossless_iff _ _ _ _ _ _ fun _ => rfl).2 ?_).1⟩
  rintro l hl
  cases hl
  decide +kernel

theorem shortLimit_loses_content : (splitJsonValueByStringPatch (.object []) "ab" (insertString "delta") (some 5)).map
    (fun frame => (frame.getStr "delta").getD "") = [""] := by decide +kernel

end Monoize.Urp
