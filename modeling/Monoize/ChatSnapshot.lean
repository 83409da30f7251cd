import Monoize.ChatStreamDemultiplex
import Monoize.GreedyClaims

/-! A chunk that carries the whole message, after deltas that carried a part of it. -/

namespace Monoize.Urp

open GreedyClaims List Option Function ChatStream JsonMap NodeDelta ChatContent JsonValue

variable {key : String} {node : Node} {start t : ChatStream} {fragments calls : List JsonMap} {message call : JsonMap}

variable {text : String} {a b e detail fragment entry : JsonMap} {p i : Nat} {done : List JsonMap}

variable {ctx : ChatContext} {s : ChatStream}

theorem snapshotSuffix_spec {streamed snapshot : String} (h : streamed.toList <+: snapshot.toList) :
    (snapshotSuffix streamed snapshot = none ∧ snapshot = streamed) ∨
      ∃ suffix, snapshotSuffix streamed snapshot = some suffix ∧ snapshot = streamed ++ suffix := by
  obtain ⟨rest, hrest⟩ := h
  have hsuffix : streamed.toList.isPrefixOf? snapshot.toList = some rest :=
    isPrefixOf?_eq_some_iff_append_eq.mpr hrest
  have heq : snapshot = streamed ++ String.ofList rest := by
    rw [← String.toList_inj]
    simp [hrest]
  by_cases hempty : String.ofList rest = ""
  · refine .inl ⟨?_, by rw [heq, hempty, String.append_empty]⟩
    simp [snapshotSuffix, hsuffix, hempty]
  · refine .inr ⟨String.ofList rest, ?_, heq⟩
    simp [snapshotSuffix, hsuffix, hempty]

/-! Entries of `reasoning_details` that are texts or summaries. -/

def isTextEntry (detail : JsonMap) : Bool := detail.strMember "type" = some "reasoning.text"

def entryPayloadKey (detail : JsonMap) : String := if isTextEntry detail then "text" else "summary"

def entryPayload (detail : JsonMap) : String := (detail.strMember (entryPayloadKey detail)).getD ""

def entryKey (detail : JsonMap) : Option String × Option JsonValue × Option JsonValue × Option JsonValue :=
  (detail.strMember "type", detail.member "id", detail.member "index",
    detail.member "tool_call_id")

@[mk_iff]
structure ReasoningEntry (detail : JsonMap) : Prop where
  kind : detail.strMember "type" = some "reasoning.text" ∨ detail.strMember "type" = some "reasoning.summary"
  payload : detail.member (entryPayloadKey detail) = none ∨
    (detail.strMember (entryPayloadKey detail)).isSome
  keys : (detail.map (·.1)).Nodup

instance (detail : JsonMap) : Decidable (ReasoningEntry detail) := decidable_of_iff _ (reasoningEntry_iff ..).symm

def formatsAgree (fragment entry : JsonMap) : Bool :=
  fragment.member "format" = none || entry.member "format" = none ||
    fragment.member "format" = entry.member "format"

def fragmentFits (fragment entry : JsonMap) : Bool :=
  entryKey fragment = entryKey entry && formatsAgree fragment entry &&
    (entryPayload fragment).toList.isPrefixOf (entryPayload entry).toList

def Node.reasoningText : Node → Option String
  | .reasoning _ content _ summary _ _ => some (content.getD "" ++ summary.getD "")
  | _ => none

def visible (detail : JsonMap) : JsonMap := detail.filter fun e => ¬ isInternalExtraKey e.1

def entryNode (isText : Bool) (id source payload : Option String) (extra : JsonMap) : Node :=
  if isText then .reasoning id payload none none source extra else .reasoning id none none payload source extra

def fragmentNode (detail : JsonMap) : Node :=
  entryNode (isTextEntry detail) ((detail.strMember "id").filter (· ≠ ""))
    ((detail.strMember "format").filter (· ≠ "")) (detail.strMember (entryPayloadKey detail))
    [(chatReasoningDetailExtraKey, .object (visible detail))]

theorem member_visible (h : isInternalExtraKey key = false) :
    member (visible detail) key = detail.member key :=
  member_filter detail fun _ => by simp [h]

theorem strMember_visible (h : isInternalExtraKey key = false) :
    strMember (visible detail) key = detail.strMember key := by
  rw [strMember, strMember, member_visible h]

theorem entryPayloadKey_visible (detail : JsonMap) : isInternalExtraKey (entryPayloadKey detail) = false := by
  unfold entryPayloadKey
  split <;> decide +kernel

theorem entryPayloadKey_ne_data (detail : JsonMap) : entryPayloadKey detail ≠ "data" := by
  unfold entryPayloadKey
  split <;> decide

theorem eq_empty_of_begins (h : text.toList <+: "".toList) : text = "" := by
  simpa using h

namespace ReasoningEntry

theorem type (h : ReasoningEntry detail) :
    detail.strMember "type" = some (if isTextEntry detail then "reasoning.text" else "reasoning.summary") := by
  rcases h.kind with hkind | hkind <;> simp [isTextEntry, hkind]

theorem payloadKey (h : ReasoningEntry detail) :
    (detail.strMember "type").bind reasoningDetailPayloadKey = some (entryPayloadKey detail) := by
  rw [h.type]
  unfold entryPayloadKey
  cases isTextEntry detail <;> rfl

theorem node_of_kind (hkind : detail.strMember "type" =
    some (if isTextEntry detail then "reasoning.text" else "reasoning.summary")) :
    chatReasoningNodeFromDetail detail = some (fragmentNode detail) := by
  unfold chatReasoningNodeFromDetail fragmentNode entryPayloadKey
  rw [hkind]
  cases isTextEntry detail with
  | true => rfl
  | false => rfl

section

variable (isText : Bool) (id source payload : Option String) (extra : JsonMap)

theorem nodeText :
    (entryNode isText id source payload extra).reasoningText = some (payload.getD "") := by
  cases isText <;> simp [entryNode, Node.reasoningText]

theorem nodeRaw (raw : JsonMap) :
    reasoningDetailRaw (entryNode isText id source payload [(chatReasoningDetailExtraKey, .object raw)]) = some raw := by
  cases isText <;> rfl

theorem nodeAccumulates (ds : List NodeDelta) :
    (entryNode isText id source payload extra).Accumulates ds ↔
      joined contentPart ds = (if isText then payload.getD "" else "") ∧
        joined summaryPart ds = (if isText then "" else payload.getD "") ∧
        joined encryptedPart ds = "" := by
  cases isText <;> rfl

end

theorem payload_cases (h : ReasoningEntry detail) :
    detail.member (entryPayloadKey detail) = none ∧ entryPayload detail = "" ∨
      detail.member (entryPayloadKey detail) = some (.string (entryPayload detail)) := by
  unfold entryPayload strMember
  cases hm : detail.member (entryPayloadKey detail) with
  | none => exact .inl ⟨rfl, rfl⟩
  | some v =>
    have hstring := h.payload
    rw [strMember, hm] at hstring
    cases v with
    | string text => exact .inr rfl
    | _ => simp [asStr] at hstring

theorem compatible_iff (hf : ReasoningEntry fragment) (he : ReasoningEntry entry) :
    detailPayloadsCompatible (fragment.member (entryPayloadKey fragment))
        (entry.member (entryPayloadKey entry)) = true ↔
      (entryPayload entry).toList <+: (entryPayload fragment).toList ∨
        (entryPayload fragment).toList <+: (entryPayload entry).toList := by
  rcases hf.payload_cases with ⟨hf, hfe⟩ | hf <;> rcases he.payload_cases with ⟨he, hee⟩ | he
  · simp [he, hee, detailPayloadsCompatible]
  · simp [hf, hfe, detailPayloadsCompatible]
  · simp [he, hee, detailPayloadsCompatible]
  · simp [hf, he, detailPayloadsCompatible]

end ReasoningEntry

theorem entryKey_visible (detail : JsonMap) : entryKey (visible detail) = entryKey detail := by
  unfold entryKey
  rw [strMember_visible (by decide +kernel), member_visible (by decide +kernel), member_visible (by decide +kernel),
    member_visible (by decide +kernel)]

theorem isTextEntry_of_key (h : entryKey a = entryKey b) : isTextEntry a = isTextEntry b := by
  have htype : a.strMember "type" = b.strMember "type" := congrArg Prod.fst h
  unfold isTextEntry
  rw [htype]

theorem entryPayloadKey_of_key (h : entryKey a = entryKey b) : entryPayloadKey a = entryPayloadKey b := by
  unfold entryPayloadKey
  rw [isTextEntry_of_key h]

theorem entryPayload_visible (detail : JsonMap) : entryPayload (visible detail) = entryPayload detail := by
  unfold entryPayload
  rw [entryPayloadKey_of_key (entryKey_visible detail), strMember_visible (entryPayloadKey_visible detail)]

namespace ReasoningEntry

theorem matches_iff (hf : ReasoningEntry fragment) (he : ReasoningEntry entry)
    (hnode : reasoningDetailRaw node = some (visible fragment)) :
    reasoningDetailMatches node entry = true ↔ entryKey fragment = entryKey entry ∧ formatsAgree fragment entry = true ∧
      ((entryPayload entry).toList <+: (entryPayload fragment).toList ∨
        (entryPayload fragment).toList <+: (entryPayload entry).toList) := by
  have hkey : entryKey fragment = entryKey entry ↔ strMember (visible fragment) "type" = entry.strMember "type" ∧
      (["id", "index", "tool_call_id"].any fun key =>
        decide (member (visible fragment) key ≠ entry.member key)) = false := by
    rw [← entryKey_visible fragment]
    simp only [entryKey, Prod.mk.injEq, any_cons, any_nil, Bool.or_false, Bool.or_eq_false_iff,
      decide_eq_false_iff_not, not_not]
  have hformat : formatsAgree fragment entry = true ↔ ¬ ((member (visible fragment) "format").isSome ∧
      (entry.member "format").isSome ∧ member (visible fragment) "format" ≠ entry.member "format") := by
    have hvisible : member (visible fragment) "format" = fragment.member "format" :=
      member_visible (by decide +kernel)
    rw [hvisible]
    unfold formatsAgree
    generalize fragment.member "format" = a
    generalize entry.member "format" = b
    cases a <;> cases b <;> simp
  unfold reasoningDetailMatches
  rw [hnode]
  dsimp only
  split
  · rename_i heq
    have hpayload : entryPayload fragment = entryPayload entry := by rw [← entryPayload_visible, heq]
    have hsame : entryKey fragment = entryKey entry := by rw [← entryKey_visible, heq]
    simp [hpayload, hsame, hformat, heq]
  · split
    · rename_i htype
      simp [hkey, htype]
    rename_i htype
    rw [not_not] at htype
    split
    · rename_i hany
      rw [hany] at hkey
      simp [hkey]
    rename_i hany
    have hsame : entryKey fragment = entryKey entry := hkey.mpr ⟨htype, by simpa using hany⟩
    split
    · rename_i hformats
      simp [hformat, hformats]
    rename_i hformats
    have hagree := hformat.mpr hformats
    rw [he.payloadKey]
    have hmember : member (visible fragment) (entryPayloadKey entry) =
        fragment.member (entryPayloadKey fragment) := by
      rw [entryPayloadKey_of_key hsame, member_visible (entryPayloadKey_visible entry)]
    simp only [entryPayloadKey_ne_data, hmember, hsame, hagree, true_and]
    exact compatible_iff hf he

theorem member_merged (fragment : JsonMap) (he : ReasoningEntry entry) (hkey : isInternalExtraKey key = false) :
    member (mergedDetail (visible fragment) entry) key =
      (entry.member key <|> fragment.member key) := by
  have hnodup : ((visible entry).map (·.1)).Nodup :=
    he.keys.sublist ((filter_sublist (l := entry)).map _)
  have hextend := member_extend (visible fragment) (visible entry) hnodup key
  rw [member_visible hkey, member_visible hkey] at hextend
  exact hextend

theorem merged_spec (he : ReasoningEntry entry) (hfits : fragmentFits fragment entry = true) :
    entryKey (mergedDetail (visible fragment) entry) = entryKey entry ∧
      entryPayload (mergedDetail (visible fragment) entry) = entryPayload entry := by
  have hfit := hfits
  simp only [fragmentFits, Bool.and_eq_true, decide_eq_true_eq, isPrefixOf_iff_prefix] at hfit
  obtain ⟨⟨hsame, -⟩, hbegins⟩ := hfit
  have hkey : entryKey (mergedDetail (visible fragment) entry) = entryKey entry := by
    have horElse : ∀ {a b : Option JsonValue}, b = a → (a <|> b) = a := by
      rintro (_ | a) b rfl <;> rfl
    have htype : strMember (mergedDetail (visible fragment) entry) "type" = entry.strMember "type" := by
      have hte := he.type
      unfold strMember at hte ⊢
      rw [member_merged fragment he (by decide +kernel)]
      cases hm : entry.member "type" with
      | none => rw [hm] at hte; cases hte
      | some v => rfl
    simp only [entryKey, Prod.mk.injEq] at hsame ⊢
    refine ⟨htype, ?_, ?_, ?_⟩
    · rw [member_merged fragment he (by decide +kernel), horElse hsame.2.1]
    · rw [member_merged fragment he (by decide +kernel), horElse hsame.2.2.1]
    · rw [member_merged fragment he (by decide +kernel), horElse hsame.2.2.2]
  refine ⟨hkey, ?_⟩
  have hmember := member_merged fragment he (entryPayloadKey_visible entry)
  rw [entryPayload, strMember, entryPayloadKey_of_key hkey, hmember]
  rcases he.payload_cases with ⟨hnone, hempty⟩ | hsome
  · rw [hnone, hempty]
    rw [hempty] at hbegins
    have hfragment := eq_empty_of_begins hbegins
    rw [entryPayload, entryPayloadKey_of_key hsame] at hfragment
    exact hfragment
  · rw [hsome]
    rfl

end ReasoningEntry

def mergedNode (fragment entry : JsonMap) : Node :=
  entryNode (isTextEntry entry)
    ((JsonMap.strMember (mergedDetail (visible fragment) entry) "id").filter (· ≠ ""))
    ((JsonMap.strMember (mergedDetail (visible fragment) entry) "format").filter (· ≠ ""))
    (JsonMap.strMember (mergedDetail (visible fragment) entry) (entryPayloadKey entry))
    [(chatReasoningDetailExtraKey, .object (visible (mergedDetail (visible fragment) entry)))]

def entryDelta (isText : Bool) (suffix : String) (source : Option String) : NodeDelta :=
  if isText then .reasoning (some suffix) none none source else .reasoning none none (some suffix) source

namespace ReasoningEntry

theorem mergedNode_spec (he : ReasoningEntry entry) (hfits : fragmentFits fragment entry = true) :
    chatReasoningNodeFromDetail (mergedDetail (visible fragment) entry) = some (mergedNode fragment entry) ∧
      (strMember (mergedDetail (visible fragment) entry) (entryPayloadKey entry)).getD "" = entryPayload entry := by
  obtain ⟨hkey, hpayload⟩ := he.merged_spec hfits
  have htext := isTextEntry_of_key hkey
  have htype : strMember (mergedDetail (visible fragment) entry) "type" = entry.strMember "type" :=
    congrArg Prod.fst hkey
  constructor
  · rw [node_of_kind (by rw [htype, he.type, htext]), fragmentNode, htext, entryPayloadKey_of_key hkey]
    rfl
  · rw [← hpayload, entryPayload, entryPayloadKey_of_key hkey]

theorem completion (he : ReasoningEntry entry) (hfits : fragmentFits fragment entry = true)
    (hnode : reasoningDetailRaw node = some (visible fragment)) : reasoningDetailCompletion node entry =
      (snapshotSuffix (entryPayload fragment) (entryPayload entry)).map fun suffix =>
        (mergedNode fragment entry, entryDelta (isTextEntry entry) suffix (entry.strMember "format"),
          [(chatReasoningDetailExtraKey,
            .object (insert (visible entry) (entryPayloadKey entry) (.string suffix)))]) := by
  obtain ⟨hmerged, hpayload⟩ := he.mergedNode_spec hfits
  have hsame : entryKey fragment = entryKey entry := by
    simp only [fragmentFits, Bool.and_eq_true, decide_eq_true_eq] at hfits
    exact hfits.1.1
  have hkey : reasoningDetailPayloadKey (if isTextEntry entry then "reasoning.text" else "reasoning.summary") =
      some (entryPayloadKey entry) := by
    unfold entryPayloadKey
    cases isTextEntry entry <;> rfl
  have hstreamed : (strMember (visible fragment) (entryPayloadKey entry)).getD "" = entryPayload fragment := by
    rw [strMember_visible (entryPayloadKey_visible entry), entryPayload, entryPayloadKey_of_key hsame]
  have hdelta : ∀ (suffix : String) (source : Option String), (if entryPayloadKey entry = "text" then
      reasoning (some suffix) none none source else .reasoning none none (some suffix) source) =
        entryDelta (isTextEntry entry) suffix source := by
    intro suffix source
    unfold entryPayloadKey entryDelta
    cases isTextEntry entry <;> rfl
  unfold reasoningDetailCompletion
  rw [hnode, he.type]
  simp only [bind_eq_bind, bind_some, hkey, if_neg (entryPayloadKey_ne_data entry), hmerged, hstreamed, hpayload, hdelta]
  cases snapshotSuffix (entryPayload fragment) (entryPayload entry) with
  | none => rfl
  | some suffix => rfl

end ReasoningEntry

/-! The stream state. -/

theorem ChatStream.Kept.replaceDetail (h : s.Kept ctx) {node' : Node}
    (hp : s.reasoningDetailNodes[p]? = some (i, node)) (hreasoning : node'.isReasoning = true)
    {events : List UrpStreamEvent}
    (hkeeps : ∀ before after, Keeps s.events (before ++ (i, node) :: after) → Keeps events (before ++ (i, node') :: after)) :
    ({ s with
      reasoningDetailNodes := s.reasoningDetailNodes.set p (i, node')
      events := events } : ChatStream).Kept ctx := by
  obtain ⟨hlt, hget⟩ := List.getElem?_eq_some_iff.mp hp
  obtain ⟨before, after, hnodes, -, hset⟩ : ∃ before after,
      s.reasoningDetailNodes = before ++ s.reasoningDetailNodes[p] :: after ∧
      before.length = p ∧ s.reasoningDetailNodes.set p (i, node') = before ++ (i, node') :: after := exists_of_set hlt
  rw [hget] at hnodes
  have hlist : s.unsortedNodes ctx =
      (s.reasoningNodeIndex.toList.map (·, s.reasoningNode ctx) ++ before) ++ (i, node) ::
        (after ++ s.textNodeIndex.toList.map (·, s.textNode ctx) ++ s.toolNodes ctx ++ s.providerItems) := by
    simp [unsortedNodes, hnodes]
  have hlist' : ({ s with
      reasoningDetailNodes := s.reasoningDetailNodes.set p (i, node')
      events := events } : ChatStream).unsortedNodes ctx =
      (s.reasoningNodeIndex.toList.map (·, s.reasoningNode ctx) ++ before) ++ (i, node') ::
        (after ++ s.textNodeIndex.toList.map (·, s.textNode ctx) ++ s.toolNodes ctx ++ s.providerItems) := by
    simp only [unsortedNodes, hset, append_assoc, cons_append]
    rfl
  have hindices : ((s.reasoningDetailNodes.set p (i, node')).map (·.1)) = s.reasoningDetailNodes.map (·.1) := by
    rw [hset, hnodes]
    simp
  exact
    { keeps := by
        rw [hlist']
        exact hkeeps _ _ (hlist ▸ h.keeps)
      next := by
        rw [hlist']
        exact h.next.trans (by rw [hlist]; simp)
      text := h.text
      reasoning := h.reasoning
      calls := h.calls
      placed := h.placed
      nodup := h.nodup
      toolsOrdered := h.toolsOrdered
      detailsOrdered := by
        rw [hindices]
        exact h.detailsOrdered
      details := by
        intro e he
        rcases mem_or_eq_of_mem_set he with he | rfl
        · exact h.details e he
        · exact hreasoning
      items := h.items }

theorem entryDelta_accumulates {isText : Bool} {id source id' source' deltaSource payload payload' : Option String}
    {extra extra' : JsonMap} {suffix : String} (h : payload'.getD "" = payload.getD "" ++ suffix) (ds : List NodeDelta)
    (hacc : (entryNode isText id source payload extra).Accumulates ds) :
    (entryNode isText id' source' payload' extra').Accumulates (ds ++ [entryDelta isText suffix deltaSource]) := by
  rw [ReasoningEntry.nodeAccumulates] at hacc ⊢
  cases isText <;>
    simp_all [entryDelta, contentPart, summaryPart, encryptedPart]

theorem announces_reasoning {header : NodeHeader} {a b : Node} (ha : a.isReasoning = true) (hb : b.isReasoning = true)
    (h : header.Announces a) : header.Announces b := by
  cases a <;> cases ha
  cases b <;> cases hb
  cases header <;> exact h

theorem ChatStream.Kept.completeDetail (h : s.Kept ctx) {fragment entry : JsonMap}
    (hp : s.reasoningDetailNodes[p]? = some (i, node)) (he : ReasoningEntry entry) (hnode : fragmentNode fragment = node)
    (hfits : fragmentFits fragment entry = true) : (completeDetail p entry s).Kept ctx ∧
      (completeDetail p entry s).content =
        { s.content with details := s.content.details.set p (mergedNode fragment entry) } := by
  unfold fragmentNode at hnode
  have hfit := hfits
  simp only [fragmentFits, Bool.and_eq_true, decide_eq_true_eq, isPrefixOf_iff_prefix] at hfit
  obtain ⟨⟨hsame, -⟩, hbegins⟩ := hfit
  have hraw : reasoningDetailRaw node = some (visible fragment) := by
    rw [← hnode, ReasoningEntry.nodeRaw]
  obtain ⟨hmerged, hpayload⟩ := he.mergedNode_spec hfits
  have hreasoning : (mergedNode fragment entry).isReasoning = true := by
    unfold mergedNode entryNode
    split <;> rfl
  have htext := isTextEntry_of_key hsame
  rw [htext] at hnode
  have hcontent : (s.reasoningDetailNodes.set p (i, mergedNode fragment entry)).map (·.2) =
      (s.reasoningDetailNodes.map (·.2)).set p (mergedNode fragment entry) := map_set
  unfold Urp.completeDetail
  rw [hp]
  dsimp only
  rw [he.completion hfits hraw]
  rcases snapshotSuffix_spec hbegins with ⟨hsuffix, heq⟩ | ⟨suffix, hsuffix, heq⟩
  · rw [hsuffix]
    simp only [map_none, hraw, getD_some, hmerged]
    refine ⟨h.replaceDetail hp hreasoning fun before after hkeeps => hkeeps.congr ?_, ?_⟩
    · refine rel_append (forall₂_same.mpr fun _ _ => ⟨rfl, fun _ hr => hr⟩)
        (.cons ⟨rfl, ?_⟩ (forall₂_same.mpr fun _ _ => ⟨rfl, fun _ hr => hr⟩))
      rintro r ⟨hopen, hann, hacc⟩
      refine ⟨hopen, ?_, ?_⟩
      · exact announces_reasoning (h.details _ (mem_of_getElem? hp)) hreasoning hann
      · rw [← hnode, ReasoningEntry.nodeAccumulates] at hacc
        rw [mergedNode, ReasoningEntry.nodeAccumulates, hpayload, heq]
        exact hacc
    · simp only [ChatStream.content, hcontent]
  · rw [hsuffix]
    dsimp only [map_some]
    have hreplace := h.replaceDetail hp hreasoning fun before after hkeeps => hkeeps.delta before
      (mergedNode fragment entry) (entryDelta (isTextEntry entry) suffix (entry.strMember "format"))
      (fun header hann => announces_reasoning (h.details _ (mem_of_getElem? hp)) hreasoning hann)
      (fun ds hacc => by
        rw [← hnode] at hacc
        exact entryDelta_accumulates (hpayload.trans heq) ds hacc)
      (JsonMap.extend [(chatReasoningDetailExtraKey,
        .object (JsonMap.insert (visible entry) (entryPayloadKey entry) (.string suffix)))] (chatDeltaEventExtra s.deltaExtra))
    refine ⟨hreplace.clearExtra, ?_⟩
    simp only [ChatStream.content, ChatStream.sendNodeDelta, ChatStream.sendEvent, hcontent]

/-- Fragments of the entries of a message: every entry is named by its key, each fragment names the
entry it is of, and the fragments of an entry make up a beginning of it. -/
@[mk_iff]
structure DetailsProtocol (fragments entries : List JsonMap) : Prop where
  fragment : ∀ f ∈ fragments, ReasoningEntry f
  entry : ∀ e ∈ entries, ReasoningEntry e
  distinct : (entries.map entryKey).Nodup
  owned : ∀ f ∈ fragments, entryKey f ∈ entries.map entryKey
  streamed : ∀ e ∈ entries,
    (String.join ((fragments.filter (entryKey · = entryKey e)).map entryPayload)).toList <+: (entryPayload e).toList

instance (fragments entries : List JsonMap) : Decidable (DetailsProtocol fragments entries) :=
  decidable_of_iff _ (detailsProtocol_iff ..).symm

theorem entryKey_of_fits {fragment entry : JsonMap} (h : fragmentFits fragment entry = true) :
    entryKey fragment = entryKey entry := by
  simp only [fragmentFits, Bool.and_eq_true, decide_eq_true_eq] at h
  exact h.1.1

theorem length_le_join {l : List String} {a : String} (h : a ∈ l) : a.length ≤ (String.join l).length := by
  obtain ⟨before, after, rfl⟩ := append_of_mem h
  simp only [String.join_append, String.join_cons, String.length_append]
  omega

namespace DetailsProtocol

variable {fragments entries : List JsonMap}

theorem exclusive (h : DetailsProtocol fragments entries) : Exclusive fragmentFits fragments entries := by
  intro f _ b hb c hc hfb hfc
  exact inj_on_of_nodup_map h.distinct hb hc ((entryKey_of_fits hfb).symm.trans (entryKey_of_fits hfc))

theorem nodup (h : DetailsProtocol fragments entries) : entries.Nodup := h.distinct.of_map

theorem matches_eq_fits (h : DetailsProtocol fragments entries) {f : JsonMap} (hf : f ∈ fragments) (he : e ∈ entries) :
    reasoningDetailMatches (fragmentNode f) e = fragmentFits f e := by
  have hraw : reasoningDetailRaw (fragmentNode f) = some (visible f) := ReasoningEntry.nodeRaw _ _ _ _ _
  rw [Bool.eq_iff_iff, (h.fragment f hf).matches_iff (h.entry e he) hraw]
  simp only [fragmentFits, Bool.and_eq_true, decide_eq_true_eq, isPrefixOf_iff_prefix, and_assoc]
  constructor
  · rintro ⟨hkey, hformat, hback | hforth⟩
    · refine ⟨hkey, hformat, ?_⟩
      have hmem : entryPayload f ∈ (fragments.filter (entryKey · = entryKey e)).map entryPayload :=
        mem_map_of_mem (mem_filter.mpr ⟨hf, by simpa using hkey⟩)
      have hle : (entryPayload f).toList.length ≤ (entryPayload e).toList.length := by
        have hjoin := (h.streamed e he).length_le
        have hpart := length_le_join hmem
        simp only [String.length_toList] at hjoin ⊢
        omega
      exact hback.eq_of_length_le hle ▸ prefix_refl _
    · exact ⟨hkey, hformat, hforth⟩
  · rintro ⟨hkey, hformat, hforth⟩
    exact ⟨hkey, hformat, .inr hforth⟩

end DetailsProtocol

def detailText (node : Node) : String := node.reasoningText.getD ""

structure Settling (ctx : ChatContext) (start : ChatContent) (fragments entries : List JsonMap)
    (acc : List Nat × ChatStream) : Prop where
  kept : acc.2.Kept ctx
  beside : { acc.2.content with details := [] } = { start with details := [] }
  claimed : ∀ p, p ∈ acc.1 ↔ ∃ e ∈ entries, GreedyClaims.claim fragmentFits fragments e = some p
  untouched : ∀ p f, fragments[p]? = some f → p ∉ acc.1 → acc.2.content.details[p]? = some (fragmentNode f)
  texts : acc.2.content.details.map detailText = filled fragmentFits fragments entryPayload entryPayload entries

theorem detailText_entryNode (isText : Bool) (id source payload : Option String) (extra : JsonMap) :
    detailText (entryNode isText id source payload extra) = payload.getD "" := by
  rw [detailText, ReasoningEntry.nodeText]
  rfl

variable {acc : List Nat × ChatStream}

theorem Settling.step {start : ChatContent} {rest : List JsonMap}
    (h : Settling ctx start fragments done acc) (hprotocol : DetailsProtocol fragments (done ++ e :: rest)) :
    Settling ctx start fragments (done ++ [e])
      (processTerminalReasoningDetail ctx fragments.length acc (.object e)) := by
  have he : e ∈ done ++ e :: rest := by simp
  have hnew : e ∉ done := by
    have hnodup := nodup_middle.1 hprotocol.nodup
    exact fun hmem => (nodup_cons.1 hnodup).1 (mem_append_left _ hmem)
  have hmatching : matchingDetail fragments.length acc.1 e acc.2.reasoningDetailNodes =
      GreedyClaims.claim fragmentFits fragments e := by
    apply find?_range_eq_findIdx?
    intro p f hf
    by_cases hp : p ∈ acc.1
    · obtain ⟨e', he', hclaim⟩ := (h.claimed p).mp hp
      obtain ⟨f', hf', hfits⟩ := claim_spec hclaim
      rw [hf, some_inj] at hf'
      subst hf'
      have hne : fragmentFits f e = false := by
        by_contra hfit
        rw [Bool.not_eq_false] at hfit
        have heq := hprotocol.exclusive f (mem_of_getElem? hf) e' (by simp [he']) e he hfits hfit
        exact hnew (heq ▸ he')
      simp [hp, hne]
    · have hnode := h.untouched p f hf hp
      simp only [content, getElem?_map, map_eq_some_iff] at hnode
      obtain ⟨⟨i, node⟩, hget, rfl⟩ := hnode
      simp [hp, hget, hprotocol.matches_eq_fits (mem_of_getElem? hf) he]
  unfold processTerminalReasoningDetail
  simp only [asObject, hmatching]
  cases hclaim : GreedyClaims.claim fragmentFits fragments e with
  | none =>
    have hnode : (object e).asObject.bind chatReasoningNodeFromDetail = some (fragmentNode e) :=
      ReasoningEntry.node_of_kind (hprotocol.entry e he).type
    have hcontent := @processReasoningDetailDelta_content ctx acc.2 (.object e)
    rw [hnode] at hcontent
    constructor
    · exact h.kept.processReasoningDetailDelta
    · rw [hcontent]
      exact h.beside
    · intro p
      simp only [h.claimed, mem_append, mem_singleton]
      constructor
      · rintro ⟨e', he', hp⟩
        exact ⟨e', .inl he', hp⟩
      · rintro ⟨e', he' | rfl, hp⟩
        · exact ⟨e', he', hp⟩
        · rw [hclaim] at hp
          cases hp
    · intro p f hf hp
      rw [hcontent]
      have hget := h.untouched p f hf hp
      exact (List.getElem?_append_left (List.getElem?_eq_some_iff.mp hget).1).trans hget
    · rw [hcontent, filled_concat_unclaimed hclaim, ← h.texts]
      simp [fragmentNode, detailText_entryNode, entryPayload]
  | some p =>
    obtain ⟨f, hf, hfits⟩ := claim_spec hclaim
    have hfree : holder fragmentFits fragments done p = none := by
      rw [holder_eq_none]
      intro e' he' hp
      have heq := claim_injective hprotocol.exclusive (by simp [he']) he hp hclaim
      exact hnew (heq ▸ he')
    have hfresh : p ∉ acc.1 := fun hp => by
      obtain ⟨e', he', hp⟩ := (h.claimed p).mp hp
      exact holder_eq_none.mp hfree e' he' hp
    have hnode := h.untouched p f hf hfresh
    simp only [content, getElem?_map, map_eq_some_iff] at hnode
    obtain ⟨⟨i, node⟩, hget, hnode⟩ := hnode
    obtain ⟨hkept, hcontent⟩ := h.kept.completeDetail hget (hprotocol.entry e he) hnode.symm hfits
    constructor
    · exact hkept
    · rw [hcontent]
      exact h.beside
    · intro q
      rw [mem_cons, h.claimed]
      simp only [mem_append, mem_singleton]
      constructor
      · rintro (rfl | ⟨e', he', hq⟩)
        · exact ⟨e, .inr rfl, hclaim⟩
        · exact ⟨e', .inl he', hq⟩
      · rintro ⟨e', he' | rfl, hq⟩
        · exact .inr ⟨e', he', hq⟩
        · exact .inl (some_inj.mp (hq.symm.trans hclaim))
    · intro q f' hf' hq
      rw [hcontent]
      simp only [mem_cons, not_or] at hq
      exact (getElem?_set_ne (Ne.symm hq.1)).trans (h.untouched q f' hf' hq.2)
    · rw [hcontent, filled_concat_claimed hclaim hfree, ← h.texts, map_set, mergedNode, detailText_entryNode,
        ((hprotocol.entry e he).mergedNode_spec hfits).2]

theorem Settling.foldl {start : ChatContent} (details : List JsonValue) (h : Settling ctx start fragments done acc)
    (hprotocol : DetailsProtocol fragments (done ++ details.filterMap asObject)) :
    Settling ctx start fragments (done ++ details.filterMap asObject)
      (details.foldl (processTerminalReasoningDetail ctx fragments.length) acc) := by
  induction details generalizing done acc with
  | nil => simpa using h
  | cons detail details ih =>
    rw [foldl_cons]
    cases hobj : detail.asObject with
    | none =>
      have hsame : processTerminalReasoningDetail ctx fragments.length acc detail = acc := by
        unfold processTerminalReasoningDetail
        rw [hobj]
      rw [filterMap_cons_none hobj] at hprotocol ⊢
      rw [hsame]
      exact ih h hprotocol
    | some e =>
      have hdetail : detail = .object e := by
        cases detail <;> simp_all [asObject]
      subst hdetail
      rw [filterMap_cons_some hobj] at hprotocol ⊢
      rw [append_cons]
      exact ih (h.step hprotocol) (append_cons .. ▸ hprotocol)

/-! The message. -/

def deltaEntries (delta : JsonValue) : List JsonMap := ((deltaDetails delta).getD []).filterMap JsonValue.asObject

def messageText (message : JsonMap) : String := (message.strMember "content").getD ""

def messageDetails (message : JsonMap) : Option (List JsonValue) :=
  ((message.member "reasoning_details").bind JsonValue.asArray).filter (fun details => ¬ details.isEmpty)

def messageEntries (message : JsonMap) : List JsonMap := ((messageDetails message).getD []).filterMap JsonValue.asObject

def messageScalar (message : JsonMap) : String :=
  match messageDetails message with
  | some _ => ""
  | none => ((message.strMember "reasoning").filter (· ≠ "") <|>
      (message.strMember "reasoning_content").filter (· ≠ "")).getD ""

def messageReasoning (message : JsonMap) : String :=
  messageScalar message ++ String.join ((messageEntries message).map entryPayload)

def messageCalls (message : JsonMap) : List JsonMap :=
  (((message.member "tool_calls").bind JsonValue.asArray).getD []).filterMap JsonValue.asObject

def callIdAt (calls : List JsonMap) (k : Nat) : String := (calls[k]?.map toolCallOwnId).getD ""

@[mk_iff]
structure FunctionEntry (call : JsonMap) : Prop where
  id : toolCallOwnId call ≠ ""
  function : ((call.member "function").bind JsonValue.asObject).isSome
  arguments : call.member "arguments" = none
  input : call.member "input" = none
  args : call.member "args" = none

/-- Fragments of the calls of a message: the fragments of an index belong to the call at that place
and their arguments make up a beginning of its arguments. -/
@[mk_iff]
structure CallsProtocol (fragments calls : List JsonMap) : Prop where
  entry : ∀ c ∈ calls, FunctionEntry c
  distinct : (calls.map toolCallOwnId).Nodup
  fragment : ToolProtocol (callIdAt calls) fragments
  streamed : ∀ k ∈ seenIndices fragments,
    calls[k]?.any (fun c => (argumentsOf k fragments).toList.isPrefixOf (fragmentArguments c).toList) = true

instance (call : JsonMap) : Decidable (FunctionEntry call) := decidable_of_iff _ (functionEntry_iff ..).symm

instance (fragments calls : List JsonMap) : Decidable (CallsProtocol fragments calls) :=
  decidable_of_iff _ (callsProtocol_iff ..).symm

theorem DetailsProtocol.fragments_eq_nil (h : DetailsProtocol fragments []) : fragments = [] := by
  rw [eq_nil_iff_forall_not_mem]
  intro f hf
  have hmem := h.owned f hf
  simp at hmem

theorem ChatContent.eq_of_beside {a b : ChatContent} (h : { a with details := [] } = { b with details := [] }) :
    a = { b with details := a.details } := by
  cases a
  cases b
  simp_all

theorem processSnapshotReasoning_details {details : List JsonValue} (hm : messageDetails message = some details) :
    processSnapshotReasoning ctx message s = processTerminalReasoningDetails ctx details s := by
  unfold messageDetails at hm
  unfold processSnapshotReasoning
  rw [hm]

theorem processSnapshotReasoning_scalar (hm : messageDetails message = none) (hnil : s.reasoningDetailNodes = [])
    (hsealed : (message.strMember "reasoning_opaque").filter (· ≠ "") = none) :
    processSnapshotReasoning ctx message s =
      match ((message.strMember "reasoning").filter (· ≠ "") <|>
        (message.strMember "reasoning_content").filter (· ≠ "")).bind (snapshotSuffix s.reasoningText) with
      | some suffix => processReasoningTextDelta ctx (some suffix) none s
      | none => s := by
  unfold messageDetails at hm
  unfold processSnapshotReasoning
  rw [hm, hnil, hsealed]
  rfl

/-! The calls. -/

theorem FunctionEntry.withArguments (h : FunctionEntry call) {arguments : String} (hne : arguments ≠ "") :
    ∃ obj, toolCallWithArgumentsDelta (.object call) arguments = .object obj ∧
      toolCallOwnId obj = toolCallOwnId call ∧ fragmentArguments obj = arguments := by
  obtain ⟨function, hfunction⟩ := isSome_iff_exists.mp h.function
  refine ⟨call.insert "function" (.object (function.insert "arguments" (.string arguments))), ?_, ?_, ?_⟩
  · simp [toolCallWithArgumentsDelta, JsonValue.asObject, hfunction]
  · simp [toolCallOwnId, member_insert]
  · simp [fragmentArguments, toolCallArgumentsDeltaText, parseToolCallArgumentsValue, member_insert, h.arguments,
      h.input, h.args, JsonValue.asObject, Option.filter, hne]

theorem toolCallIdOf_own {call : JsonMap} (h : toolCallOwnId call ≠ "") (pos : Nat) :
    s.toolCallIdOf call pos = toolCallOwnId call := by
  simp [toolCallIdOf, h]

theorem terminalToolCallId_own (h : toolCallOwnId call ≠ "") (pos : Nat) :
    s.terminalToolCallId call pos = some (toolCallOwnId call) := by
  unfold toolCallOwnId at h ⊢
  unfold terminalToolCallId
  cases hid : (call.member "id" <|> call.member "call_id").bind asStr with
  | none =>
    rw [hid] at h
    exact absurd rfl h
  | some id =>
    rw [hid] at h
    have hne : id ≠ "" := h
    simp [hne]

variable (h : s.Kept ctx)

include h

theorem processSnapshotReasoning_spec (hdetails : s.content.details = fragments.map fragmentNode)
    (hprotocol : DetailsProtocol fragments (messageEntries message))
    (hstreamed : s.reasoningText.toList <+: (messageScalar message).toList)
    (hsealed : (message.strMember "reasoning_opaque").filter (· ≠ "") = none) :
    (processSnapshotReasoning ctx message s).Kept ctx ∧ ∃ details,
      (processSnapshotReasoning ctx message s).content =
        { s.content with reasoning := messageScalar message, details := details } ∧
      details.map detailText = filled fragmentFits fragments entryPayload entryPayload (messageEntries message) := by
  have hlength : s.reasoningDetailNodes.length = fragments.length := by
    have hlen := congrArg length hdetails
    simpa [ChatStream.content] using hlen
  cases hm : messageDetails message with
  | some details =>
    rw [processSnapshotReasoning_details hm]
    simp only [messageScalar, hm] at hstreamed
    have hempty := eq_empty_of_begins hstreamed
    have hentries : messageEntries message = details.filterMap JsonValue.asObject := by simp [messageEntries, hm]
    have hstart : Settling ctx s.content fragments [] ([], s) :=
      { kept := h
        beside := rfl
        claimed := by simp
        untouched := by
          intro p f hf _
          rw [hdetails, getElem?_map, hf]
          rfl
        texts := by
          rw [filled_nil, hdetails, List.map_map]
          apply List.map_congr_left
          intro f _
          exact detailText_entryNode _ _ _ _ _ }
    have hend := hstart.foldl details (by rw [nil_append, ← hentries]; exact hprotocol)
    rw [nil_append, ← hentries, ← hlength] at hend
    refine ⟨hend.kept, _, ?_, hend.texts⟩
    refine (eq_of_beside hend.beside).trans ?_
    simp only [messageScalar, hm, ← hempty]
    rfl
  | none =>
    have hentries : messageEntries message = [] := by simp [messageEntries, hm]
    rw [hentries] at hprotocol
    have hfragments := hprotocol.fragments_eq_nil
    subst hfragments
    have hnil : s.reasoningDetailNodes = [] := length_eq_zero_iff.mp hlength
    rw [processSnapshotReasoning_scalar hm hnil hsealed, hentries]
    simp only [messageScalar, hm] at hstreamed ⊢
    generalize ((message.strMember "reasoning").filter (· ≠ "") <|>
      (message.strMember "reasoning_content").filter (· ≠ "")) = snapshot at hstreamed ⊢
    cases snapshot with
    | none =>
      have hempty := eq_empty_of_begins hstreamed
      refine ⟨h, [], ?_, rfl⟩
      simp [ChatStream.content, hnil, hempty]
    | some text =>
      rw [getD_some] at hstreamed
      rcases snapshotSuffix_spec hstreamed with ⟨hsuffix, heq⟩ | ⟨suffix, hsuffix, heq⟩
      · rw [bind_some, hsuffix]
        refine ⟨h, [], ?_, rfl⟩
        simp [ChatStream.content, hnil, heq]
      · rw [bind_some, hsuffix]
        refine ⟨h.processReasoningTextDelta, [], ?_, rfl⟩
        rw [processReasoningTextDelta_content]
        simp [ChatStream.content, hnil, heq]

theorem processSnapshotText_spec (hstreamed : s.outputText.toList <+: text.toList) :
    (processSnapshotText ctx text s).Kept ctx ∧ ∃ hasText, (text = "" → hasText = s.content.hasText) ∧
      (processSnapshotText ctx text s).content = { s.content with text := text, hasText := hasText } := by
  unfold processSnapshotText
  rcases snapshotSuffix_spec hstreamed with ⟨hsuffix, heq⟩ | ⟨suffix, hsuffix, heq⟩
  · rw [hsuffix]
    exact ⟨h, _, fun _ => rfl, by rw [heq]; rfl⟩
  rw [hsuffix]
  refine ⟨h.processTextDelta, s.content.hasText || suffix != "", ?_, ?_⟩
  · intro hempty
    rw [heq, String.append_eq_empty_iff] at hempty
    simp [hempty.2]
  · rw [processTextDelta_content, heq]
    rfl

theorem processSnapshotContent_spec (hstring : (message.member "content").bind asArray = none)
    (hstreamed : s.outputText.toList <+: (messageText message).toList) : (processSnapshotContent ctx message s).Kept ctx ∧
      ∃ hasText, (messageText message = "" → hasText = s.content.hasText) ∧
        (processSnapshotContent ctx message s).content =
          { s.content with text := messageText message, hasText := hasText } := by
  unfold processSnapshotContent
  split
  · rename_i text hcontent
    have htext : messageText message = text := by simp [messageText, strMember, hcontent, asStr]
    rw [htext] at hstreamed ⊢
    exact processSnapshotText_spec h hstreamed
  · rename_i blocks hcontent
    rw [hcontent] at hstring
    cases hstring
  · rename_i hstr _
    have htext : messageText message = "" := by
      unfold messageText strMember
      cases hv : message.member "content" with
      | none => rfl
      | some v =>
        cases v with
        | string text => exact absurd hv (hstr text)
        | _ => rfl
    rw [htext] at hstreamed ⊢
    have hempty := eq_empty_of_begins hstreamed
    exact ⟨h, _, fun _ => rfl, by rw [← hempty]; rfl⟩

theorem ChatStream.Kept.placed_of_call {callId : String} {entry : ToolCallEntry}
    (hentry : s.calls callId = some entry) : ∃ i, s.toolNodeIndexByCallId callId = some i :=
  isSome_iff_exists.mp ((h.placed callId).mp ((h.calls callId).mpr (by rw [hentry]; rfl)))

theorem processTerminalToolCallSnapshot_known (hid : toolCallOwnId call ≠ "") (pos : Nat)
    {entry : ToolCallEntry} (hentry : s.calls (toolCallOwnId call) = some entry) :
    processTerminalToolCallSnapshot ctx (.object call) pos false s =
      match snapshotSuffix entry.arguments (fragmentArguments call) with
      | none => extendCall (toolCallOwnId call) (chatToolCallType call) (toolCallName call) "" false s
      | some suffix => processToolCallDelta ctx (toolCallWithArgumentsDelta (.object call) suffix) pos false
          (extendCall (toolCallOwnId call) (chatToolCallType call) (toolCallName call) "" false s) := by
  obtain ⟨i, hi⟩ := h.placed_of_call hentry
  unfold processTerminalToolCallSnapshot extendCall
  simp only [asObject, terminalToolCallId_own hid pos, hentry, hi]
  rfl

theorem processTerminalToolCallSnapshot_spec (hcall : FunctionEntry call) (pos : Nat)
    (hstreamed : ∀ entry, s.calls (toolCallOwnId call) = some entry →
      entry.arguments.toList <+: (fragmentArguments call).toList) :
    (processTerminalToolCallSnapshot ctx (.object call) pos false s).Kept ctx ∧
      (processTerminalToolCallSnapshot ctx (.object call) pos false s).content.prose = s.content.prose ∧
      ∃ entry, entry.arguments = fragmentArguments call ∧
        (processTerminalToolCallSnapshot ctx (.object call) pos false s).calls =
          update s.calls (toolCallOwnId call) (some entry) := by
  cases hentry : s.calls (toolCallOwnId call) with
  | none =>
    unfold processTerminalToolCallSnapshot
    simp only [asObject, terminalToolCallId_own hcall.id pos, hentry]
    refine ⟨h.processToolCallDelta, processToolCallDelta_prose, ?_⟩
    have hid := @toolCallIdOf_own s call hcall.id pos
    have hcalls := congrArg ChatContent.calls
      (@processToolCallDelta_content ctx s pos false call (by rw [hid]; exact hcall.id))
    rw [hid] at hcalls
    refine ⟨_, ?_, hcalls⟩
    simp [content, hentry, ToolCallEntry.update, fragmentArguments]
  | some entry =>
    rw [processTerminalToolCallSnapshot_known h hcall.id pos hentry]
    obtain ⟨i, hi⟩ := h.placed_of_call hentry
    have hkept : (extendCall (toolCallOwnId call) (chatToolCallType call) (toolCallName call) "" false s).Kept ctx :=
        h.extendCall
    have hcontent := @extendCall_content s _ (toolCallName call) "" (chatToolCallType call) false _ _ hi hentry
    generalize extendCall (toolCallOwnId call) (chatToolCallType call) (toolCallName call) "" false s = t at hkept hcontent
    have hprose : t.content.prose = s.content.prose := by rw [hcontent]; rfl
    have hcalls : t.calls = update s.calls (toolCallOwnId call)
        (some (entry.update (chatToolCallType call) (toolCallName call) "" false)) := congrArg ChatContent.calls hcontent
    rcases snapshotSuffix_spec (hstreamed entry hentry) with ⟨hsuffix, heq⟩ | ⟨suffix, hsuffix, heq⟩
    · rw [hsuffix]
      exact ⟨hkept, hprose, _, by simp [ToolCallEntry.update, heq], hcalls⟩
    have hne : suffix ≠ "" := by simpa using (filter_eq_some_iff.mp hsuffix).2
    obtain ⟨obj, hobj, hown, harguments⟩ := hcall.withArguments hne
    rw [hsuffix]
    dsimp only
    rw [hobj]
    have hid : t.toolCallIdOf obj pos = toolCallOwnId call := by
      rw [toolCallIdOf_own (by rw [hown]; exact hcall.id), hown]
    refine ⟨hkept.processToolCallDelta, (processToolCallDelta_prose).trans hprose, ?_⟩
    have hadded := congrArg ChatContent.calls
      (@processToolCallDelta_content ctx t pos false obj (by rw [hid]; exact hcall.id))
    rw [hid] at hadded
    have hupdate : (addCall t.content (toolCallIndex obj) (toolCallOwnId call) (chatToolCallType obj)
        (toolCallName obj) ((toolCallArgumentsDeltaText obj).getD "") false).calls =
        update s.calls (toolCallOwnId call) (some
          ((entry.update (chatToolCallType call) (toolCallName call) "" false).update (chatToolCallType obj)
            (toolCallName obj) suffix false)) := by
      have hargs : (toolCallArgumentsDeltaText obj).getD "" = suffix := harguments
      simp only [addCall, content, hcalls, update_self, getD_some,
        update_idem, hargs]
    exact ⟨_, by simp [ToolCallEntry.update, heq], hadded.trans hupdate⟩

omit h

structure CallsSettled (ctx : ChatContext) (start : ChatStream) (calls : List JsonMap) (t : ChatStream) : Prop where
  kept : t.Kept ctx
  prose : t.content.prose = start.content.prose
  whole : ∀ c ∈ calls, ∃ entry, t.calls (toolCallOwnId c) = some entry ∧ entry.arguments = fragmentArguments c
  others : ∀ callId, callId ∉ calls.map toolCallOwnId → t.calls callId = start.calls callId

theorem CallsSettled.step {c : JsonMap} (h : CallsSettled ctx start calls t) (hcall : FunctionEntry c)
    (hnew : toolCallOwnId c ∉ calls.map toolCallOwnId) (pos : Nat)
    (hstreamed : ∀ entry, start.calls (toolCallOwnId c) = some entry →
      entry.arguments.toList <+: (fragmentArguments c).toList) :
    CallsSettled ctx start (calls ++ [c]) (processTerminalToolCallSnapshot ctx (.object c) pos false t) := by
  obtain ⟨hkept, hprose, entry, harguments, hcalls⟩ :=
    processTerminalToolCallSnapshot_spec h.kept hcall pos (h.others _ hnew ▸ hstreamed)
  constructor
  · exact hkept
  · exact hprose.trans h.prose
  · intro c' hc'
    rw [hcalls]
    by_cases heq : toolCallOwnId c' = toolCallOwnId c
    · rcases mem_append.mp hc' with hc' | hc'
      · exact absurd (heq ▸ mem_map_of_mem hc') hnew
      · rw [mem_singleton] at hc'
        subst hc'
        exact ⟨entry, update_self _ _ _, harguments⟩
    · rw [update_of_ne heq]
      rcases mem_append.mp hc' with hc' | hc'
      · exact h.whole c' hc'
      · rw [mem_singleton] at hc'
        exact absurd (congrArg toolCallOwnId hc') heq
  · intro callId hmem
    simp only [map_append, map_singleton, mem_append, mem_singleton, not_or] at hmem
    rw [hcalls, update_of_ne hmem.2, h.others callId hmem.1]

theorem CallsSettled.foldl (raws : List JsonValue) (pos : Nat) (h : CallsSettled ctx start calls t)
    (hentry : ∀ c ∈ raws.filterMap asObject, FunctionEntry c)
    (hdistinct : ((calls ++ raws.filterMap asObject).map toolCallOwnId).Nodup)
    (hstreamed : ∀ c ∈ raws.filterMap asObject, ∀ entry, start.calls (toolCallOwnId c) = some entry →
      entry.arguments.toList <+: (fragmentArguments c).toList) :
    CallsSettled ctx start (calls ++ raws.filterMap asObject)
      ((raws.zipIdx pos).foldl (fun s call => processTerminalToolCallSnapshot ctx call.1 call.2 false s) t) := by
  induction raws generalizing t calls pos with
  | nil => simpa using h
  | cons raw raws ih =>
    rw [zipIdx_cons, foldl_cons]
    cases hraw : raw.asObject with
    | none =>
      have hsame : processTerminalToolCallSnapshot ctx raw pos false t = t := by
        unfold processTerminalToolCallSnapshot
        rw [hraw]
      rw [filterMap_cons_none hraw] at hentry hdistinct hstreamed ⊢
      rw [hsame]
      exact ih (pos + 1) h hentry hdistinct hstreamed
    | some c =>
      have hobj : raw = .object c := by
        cases raw <;> simp_all [asObject]
      subst hobj
      rw [filterMap_cons_some hraw] at hentry hdistinct hstreamed ⊢
      rw [append_cons] at hdistinct ⊢
      have hnew : toolCallOwnId c ∉ calls.map toolCallOwnId := by
        rw [map_append, map_append, append_assoc, nodup_append] at hdistinct
        intro hmem
        exact hdistinct.2.2 _ hmem (toolCallOwnId c) (by simp) rfl
      exact ih (pos + 1) (h.step (hentry c (by simp)) hnew pos (hstreamed c (by simp)))
        (fun c' hc' => hentry c' (by simp [hc'])) hdistinct (fun c' hc' => hstreamed c' (by simp [hc']))

theorem CallsSettled.calls_perm (h : CallsSettled ctx start calls t) (hdistinct : (calls.map toolCallOwnId).Nodup)
    (hstart : ∀ callId, (start.calls callId).isSome → callId ∈ calls.map toolCallOwnId) :
    ((((t.sortedNodes ctx).map (·.2)).filterMap Node.call).map fun c => (c.1, c.2.2)).Perm
      (calls.map fun c => (toolCallOwnId c, fragmentArguments c)) := by
  have horder : t.callOrder.Perm (calls.map toolCallOwnId) := by
    refine (perm_ext_iff_of_nodup h.kept.nodup hdistinct).mpr ?_
    intro callId
    rw [h.kept.calls]
    constructor
    · intro hsome
      by_contra hmem
      rw [h.others callId hmem] at hsome
      exact hmem (hstart callId hsome)
    · intro hmem
      obtain ⟨c, hc, rfl⟩ := mem_map.mp hmem
      obtain ⟨entry, hentry, -⟩ := h.whole c hc
      rw [hentry]
      rfl
  rw [h.kept.sorted_calls]
  refine ((horder.filterMap _).map _).trans (List.Perm.of_eq ?_)
  rw [filterMap_map, map_filterMap, ← filterMap_eq_map]
  apply filterMap_congr
  intro c hc
  obtain ⟨entry, hentry, harguments⟩ := h.whole c hc
  simp [hentry, harguments]

end Monoize.Urp
