import Monoize.TextFields
import Monoize.UrpStream

/-! How encrypted reasoning travels through a client: as a sigil that joins the item id and the signature. -/

namespace Monoize.Urp

open List TextFields

def reasoningSignatureSigilPrefix : String := "mz1."

def strip? (lead text : String) : Option (List Char) :=
  if lead.toList.isPrefixOf text.toList then some (text.toList.drop lead.toList.length) else none

def isReasoningSignatureSigil (signature : String) : Bool := (strip? reasoningSignatureSigilPrefix signature).isSome

def wrapReasoningSignatureWithItemId (itemId signature : String) : Option String :=
  if itemId = "" ∨ signature = "" then none
  else if isReasoningSignatureSigil signature then some signature
  else some (reasoningSignatureSigilPrefix ++ (itemId ++ "." ++ signature))

def unwrapReasoningSignatureSigil (signature : String) : Option (String × String) := do
  let rest ← strip? reasoningSignatureSigilPrefix signature
  let (id, original) ← splitAt? '.' rest
  if id = [] ∨ original = [] then none else some (.ofList id, .ofList original)

section

variable {lead text itemId signature : String} {rest : List Char}

theorem strip?_eq_some : strip? lead text = some rest ↔ text = lead ++ .ofList rest := by
  rw [strip?, ← String.toList_inj, String.toList_append, String.toList_ofList]
  split
  · rename_i hlead
    obtain ⟨more, hmore⟩ := isPrefixOf_iff_prefix.1 hlead
    simp [← hmore]
  · rename_i hlead
    simp only [reduceCtorEq, false_iff]
    exact fun h => hlead ( isPrefixOf_iff_prefix.2 ⟨rest, h.symm⟩)

theorem unwrapReasoningSignatureSigil_eq_some :
    unwrapReasoningSignatureSigil text = some (itemId, signature) ↔
      text = reasoningSignatureSigilPrefix ++ (itemId ++ "." ++ signature) ∧ '.' ∉ itemId.toList ∧ itemId ≠ "" ∧
        signature ≠ "" := by
  simp only [unwrapReasoningSignatureSigil, bind, Option.bind_eq_some_iff, strip?_eq_some]
  constructor
  · rintro ⟨_, rfl, ⟨id, original⟩, hsplit, h⟩
    obtain ⟨rfl, hdot⟩ := splitAt?_eq_some.1 hsplit
    split at h
    · cases h
    · rename_i hne
      cases h
      simpa [← String.toList_inj, hdot] using hne
  · rintro ⟨rfl, hdot, hid, hsignature⟩
    refine ⟨_, congrArg _ (String.ofList_toList).symm, (itemId.toList, signature.toList), splitAt?_eq_some.2 ⟨?_, hdot⟩, ?_⟩
    · simp
    · simp [hid, hsignature]

end

theorem isSigil_of_wrap {itemId signature sigil : String}
    (h : wrapReasoningSignatureWithItemId itemId signature = some sigil) : isReasoningSignatureSigil sigil = true := by
  unfold wrapReasoningSignatureWithItemId at h
  split at h
  · cases h
  split at h
  · rename_i hsigil
    cases h
    exact hsigil
  · cases h
    rw [isReasoningSignatureSigil, strip?_eq_some.2 (congrArg _ String.ofList_toList.symm), Option.isSome_some]

def SigilRoundTrips (itemId signature : String) : Prop :=
  ∃ sigil, wrapReasoningSignatureWithItemId itemId signature = some sigil ∧
    unwrapReasoningSignatureSigil sigil = some (itemId, signature)

theorem sigilRoundTrips_iff {itemId signature : String} (hid : itemId ≠ "")
    (hplain : isReasoningSignatureSigil signature = false) :
    SigilRoundTrips itemId signature ↔ '.' ∉ itemId.toList ∧ signature ≠ "" := by
  unfold SigilRoundTrips wrapReasoningSignatureWithItemId
  simp only [unwrapReasoningSignatureSigil_eq_some, hplain]
  constructor
  · rintro ⟨sigil, -, -, hdot, -, hsignature⟩
    exact ⟨hdot, hsignature⟩
  · rintro ⟨hdot, hsignature⟩
    exact ⟨_, by simp [hid, hsignature], rfl, hdot, hid, hsignature⟩

/-- The packer emits sigils only, and two pairs come back from it and differ in it exactly when neither item id has a
dot: the first dot of a sigil ends the item id. An empty signature has no sigil. -/
theorem sigils_roundTrip_iff (itemId itemId' signature signature' : String) (hid : itemId ≠ "") (hid' : itemId' ≠ "")
    (hplain : isReasoningSignatureSigil signature = false) (hplain' : isReasoningSignatureSigil signature' = false) :
    (∀ id text sigil, wrapReasoningSignatureWithItemId id text = some sigil → isReasoningSignatureSigil sigil = true) ∧
    (SigilRoundTrips itemId signature ∧ SigilRoundTrips itemId' signature' ∧
        (wrapReasoningSignatureWithItemId itemId signature = wrapReasoningSignatureWithItemId itemId' signature' →
          itemId = itemId' ∧ signature = signature') ↔
      ('.' ∉ itemId.toList ∧ signature ≠ "") ∧ '.' ∉ itemId'.toList ∧ signature' ≠ "") := by
  refine ⟨fun _ _ _ => isSigil_of_wrap, ?_⟩
  rw [← sigilRoundTrips_iff hid hplain, ← sigilRoundTrips_iff hid' hplain', ← and_assoc, and_iff_left_iff_imp]
  rintro ⟨⟨sigil, hwrap, hunwrap⟩, sigil', hwrap', hunwrap'⟩ hsame
  rw [hwrap, hwrap', Option.some_inj] at hsame
  rw [hsame, hunwrap'] at hunwrap
  cases hunwrap
  exact ⟨rfl, rfl⟩

theorem dotted_itemId_collides : wrapReasoningSignatureWithItemId "a.b" "c" = some "mz1.a.b.c" ∧
    wrapReasoningSignatureWithItemId "a" "b.c" = some "mz1.a.b.c" ∧
    unwrapReasoningSignatureSigil "mz1.a.b.c" = some ("a", "b.c") := by decide +kernel

theorem sigils_roundTrip_plain : SigilRoundTrips "rs_1" "c.d" :=
  ((sigils_roundTrip_iff "rs_1" "rs_2" "c.d" "e" (by decide) (by decide) (by decide +kernel) (by decide +kernel)).2.2
    (by decide)).1

end Monoize.Urp
