import Mosaic.Proofs.MarkedTokens
import Mosaic.Yaml.Event

/-!
# The marks of YAML events

An event has the mark of a token, and a reader of events complains at the mark of one.

* `EventReader.readsEvent_node` — nodes, with what stands in front of them.
* `EventReader.readsEvent_next` — one event, whatever the reader expects.
-/

namespace Mosaic.Yaml

open Text

variable {t : Text} {r : EventReader} {m : Mark}

/-- A reader of events ends with one whose mark stands in the text, and goes on in it, or ends
with a fault at a mark in the text. -/
abbrev ReadsEvent (t : Text) (x : Except Fault (Event × EventReader)) : Prop :=
  Reads t (fun r => r.1.mark.In t ∧ r.2.tokens.In t) x

namespace EventReader

lemma reads_peek (h : r.tokens.In t) :
    Reads t (fun x => x.1.mark.In t ∧ x.2.tokens.In t) r.peek :=
  h.peek.bind fun _ hx => hx

/-! ## Documents -/

lemma reads_readDirectives (h : r.tokens.In t) (fuel : Nat) (versioned : Bool) :
    Reads t (fun r => r.tokens.In t) (readDirectives fuel versioned r) := by
  induction fuel generalizing r versioned with
  | zero => exact h
  | succ fuel ih =>
    rw [readDirectives]
    refine (reads_peek h).bind ?_
    rintro ⟨token, r⟩ ⟨hm, hr⟩
    dsimp only
    split
    · refine .throwIf ?_ (.throwIf ?_ (ih hr.drop true))
      · exact hm
      · exact hm
    · refine .throwIf ?_ (ih hr.drop versioned)
      exact hm
    · exact hr

lemma reads_skipDocumentEnds (h : r.tokens.In t) (fuel : Nat) :
    Reads t (fun r => r.tokens.In t) (skipDocumentEnds fuel r) := by
  induction fuel generalizing r with
  | zero => exact h
  | succ fuel ih =>
    rw [skipDocumentEnds]
    exact (reads_peek h).bind fun _ hx => .ite (fun _ => ih hx.2.drop) fun _ => hx.2

lemma readsEvent_documentStart (h : r.tokens.In t) (implicit : Bool) :
    ReadsEvent t (documentStart implicit r) := by
  unfold documentStart
  refine .ite_bind (P := fun r => r.tokens.In t) (fun _ => by exact h)
    (fun _ => reads_skipDocumentEnds h _) fun r hr => (reads_peek hr).bind ?_
  rintro ⟨token, r⟩ ⟨hm, hr⟩
  dsimp only
  split
  · exact ⟨hm, hr.drop⟩
  · refine (reads_readDirectives hr _ false).bind fun r hr => .ite (fun _ => ⟨hm, hr⟩) fun _ => ?_
    refine Reads.bind (reads_peek (by exact hr)) fun x hx => ?_
    refine .throwIf ?_ ⟨hm, hx.2.drop⟩
    exact hx.1

lemma readsEvent_documentEnd (h : r.tokens.In t) : ReadsEvent t r.documentEnd := by
  unfold documentEnd
  refine (reads_peek h).bind ?_
  rintro ⟨token, r⟩ ⟨hm, hr⟩
  refine ⟨hm, ?_⟩
  show Tokenizer.In t (if token.kind = .documentEnd then r.drop else r).tokens
  split
  · exact hr.drop
  · exact hr

/-! ## Nodes -/

/-- The mark of a tag before a node stands in the text. -/
lemma reads_readProperties (h : r.tokens.In t) :
    Reads t (fun x => (∀ tag ∈ x.1.tag, tag.2.In t) ∧ x.2.tokens.In t) r.readProperties := by
  have hsome {tag : TagName} {m : Mark} (hm : m.In t) : ∀ x ∈ some (tag, m), x.2.In t := by
    intro x hx
    obtain rfl := Option.some.inj hx
    exact hm
  unfold readProperties
  refine (reads_peek h).bind ?_
  rintro ⟨token, r⟩ ⟨hm, hr⟩
  dsimp only
  split
  · refine (reads_peek (by exact hr.drop)).bind ?_
    rintro ⟨next, r⟩ ⟨hnext, hr⟩
    dsimp only
    split
    · exact ⟨hsome hnext, hr.drop⟩
    · exact ⟨nofun, hr⟩
  · refine (reads_peek (by exact hr.drop)).bind ?_
    rintro ⟨next, r⟩ ⟨-, hr⟩
    dsimp only
    split
    · exact ⟨hsome hm, hr.drop⟩
    · exact ⟨hsome hm, hr⟩
  · exact ⟨nofun, hr⟩

lemma reads_resolveTag (start : Mark) {tag : Option (TagName × Mark)}
    (htag : ∀ x ∈ tag, x.2.In t) : Reads t (fun _ => True) (r.resolveTag start tag) := by
  unfold resolveTag
  split
  · trivial
  · trivial
  · split
    · trivial
    · exact htag _ rfl

/-- **A node starts where its first token does.** -/
theorem readsEvent_node (h : r.tokens.In t) (block indentless : Bool) :
    ReadsEvent t (node block indentless r) := by
  unfold node
  refine (reads_peek h).bind ?_
  rintro ⟨token, r⟩ ⟨hm, hr⟩
  dsimp only
  split
  · exact ⟨hm, hr.drop⟩
  refine (reads_readProperties hr).bind ?_
  rintro ⟨properties, r⟩ ⟨htag, hr⟩
  refine (reads_peek hr).bind ?_
  rintro ⟨next, r⟩ ⟨hnext, hr⟩
  refine (reads_resolveTag token.mark htag).bind fun tag _ => ?_
  -- a node without content, which may still have an anchor or a tag
  have hmissing {p : Prop} [Decidable p] {kind : EventKind} {activity : Activity} : ReadsEvent t
      (if p then .ok (⟨kind, token.mark⟩, r.leave)
        else .error (fault .nodeMissing next.mark activity token.mark)) :=
    .ite (fun _ => ⟨hm, hr⟩) fun _ => hnext
  dsimp only
  split
  · exact ⟨hm, hr.drop⟩
  · exact ⟨hm, hr⟩
  · exact ⟨hm, hr⟩
  · exact .ite (fun _ => ⟨hm, hr⟩) fun _ => hmissing
  · exact .ite (fun _ => ⟨hm, hr⟩) fun _ => hmissing
  · exact .ite (fun _ => ⟨hm, hr⟩) fun _ => hmissing
  · exact hmissing

lemma readsEvent_nodeUnless (h : r.tokens.In t) (ends : List TokenKind) (block indentless : Bool)
    (next : Expectation) {before : Option Mark} (hbefore : ∀ m ∈ before, m.In t) :
    ReadsEvent t (nodeUnless ends block indentless next r before) := by
  unfold nodeUnless
  refine (reads_peek h).bind ?_
  rintro ⟨token, r⟩ ⟨hm, hr⟩
  refine .ite (fun _ => ⟨?_, hr⟩) fun _ => readsEvent_node (by exact hr) block indentless
  cases before with
  | none => exact hm
  | some m => exact hbefore m rfl

lemma readsEvent_documentContent (h : r.tokens.In t) : ReadsEvent t r.documentContent := by
  unfold documentContent
  refine (reads_peek h).bind ?_
  rintro ⟨token, r⟩ ⟨hm, hr⟩
  dsimp only
  split
  · exact ⟨hm, hr⟩
  · exact ⟨hm, hr⟩
  · exact ⟨hm, hr⟩
  · exact ⟨hm, hr⟩
  · exact readsEvent_node hr true false

lemma reads_enter (h : r.tokens.In t) (isFirst : Bool) :
    Reads t (fun r => r.tokens.In t) (r.enter isFirst) :=
  .ite (fun _ => (reads_peek h).bind fun _ hx => hx.2.drop) fun _ => h

/-! ## Block collections -/

lemma readsEvent_blockSequenceEntry (h : r.tokens.In t) (isFirst : Bool) :
    ReadsEvent t (r.blockSequenceEntry isFirst) := by
  unfold blockSequenceEntry
  refine (reads_enter h isFirst).bind fun r hr => (reads_peek hr).bind ?_
  rintro ⟨token, r⟩ ⟨hm, hr⟩
  dsimp only
  split
  · exact readsEvent_nodeUnless hr.drop _ true false _ (by simpa using hm)
  · exact ⟨hm, hr.drop⟩
  · exact hm

lemma readsEvent_indentlessSequenceEntry (h : r.tokens.In t) :
    ReadsEvent t r.indentlessSequenceEntry := by
  unfold indentlessSequenceEntry
  refine (reads_peek h).bind ?_
  rintro ⟨token, r⟩ ⟨hm, hr⟩
  dsimp only
  split
  · exact readsEvent_nodeUnless hr.drop _ true false _ (by simpa using hm)
  · exact ⟨hm, hr⟩

lemma readsEvent_blockMappingKey (h : r.tokens.In t) (isFirst : Bool) :
    ReadsEvent t (r.blockMappingKey isFirst) := by
  unfold blockMappingKey
  refine (reads_enter h isFirst).bind fun r hr => (reads_peek hr).bind ?_
  rintro ⟨token, r⟩ ⟨hm, hr⟩
  dsimp only
  split
  · exact readsEvent_nodeUnless hr.drop _ true true _ (by simpa using hm)
  · exact ⟨hm, hr.drop⟩
  · exact hm

lemma readsEvent_blockMappingValue (h : r.tokens.In t) : ReadsEvent t r.blockMappingValue := by
  unfold blockMappingValue
  refine (reads_peek h).bind ?_
  rintro ⟨token, r⟩ ⟨hm, hr⟩
  dsimp only
  split
  · exact readsEvent_nodeUnless hr.drop _ true true _ (by simpa using hm)
  · exact ⟨hm, hr⟩

/-! ## Flow collections -/

lemma reads_comma (h : r.tokens.In t) (isFirst : Bool) (problem : Problem) (activity : Activity)
    (close : TokenKind) : Reads t (fun x => x.1.mark.In t ∧ x.2.tokens.In t)
      (r.comma isFirst problem activity close) := by
  unfold comma
  refine (reads_peek h).bind ?_
  rintro ⟨token, r⟩ ⟨hm, hr⟩
  exact .ite (fun _ => ⟨hm, hr⟩) fun _ => .ite (fun _ => reads_peek (by exact hr.drop))
    fun _ => hm

lemma readsEvent_flowSequenceEntry (h : r.tokens.In t) (isFirst : Bool) :
    ReadsEvent t (r.flowSequenceEntry isFirst) := by
  unfold flowSequenceEntry
  refine (reads_enter h isFirst).bind fun r hr => (reads_comma hr _ _ _ _).bind ?_
  rintro ⟨token, r⟩ ⟨hm, hr⟩
  dsimp only
  split
  · exact ⟨hm, hr.drop⟩
  · exact ⟨hm, hr.drop⟩
  · exact readsEvent_node (by exact hr) false false

lemma readsEvent_flowPairKey (h : r.tokens.In t) : ReadsEvent t r.flowPairKey := by
  unfold flowPairKey
  refine (reads_peek h).bind ?_
  rintro ⟨token, r⟩ ⟨hm, hr⟩
  exact .ite (fun _ => ⟨hm, hr.drop⟩) fun _ => readsEvent_node (by exact hr) false false

lemma readsEvent_flowPairValue (h : r.tokens.In t) : ReadsEvent t r.flowPairValue := by
  unfold flowPairValue
  refine (reads_peek h).bind ?_
  rintro ⟨token, r⟩ ⟨hm, hr⟩
  dsimp only
  split
  · exact readsEvent_nodeUnless hr.drop _ false false _ nofun
  · exact ⟨hm, hr⟩

lemma readsEvent_flowPairEnd (h : r.tokens.In t) : ReadsEvent t r.flowPairEnd :=
  (reads_peek h).bind fun _ hx => hx

lemma readsEvent_flowMappingKey (h : r.tokens.In t) (isFirst : Bool) :
    ReadsEvent t (r.flowMappingKey isFirst) := by
  unfold flowMappingKey
  refine (reads_enter h isFirst).bind fun r hr => (reads_comma hr _ _ _ _).bind ?_
  rintro ⟨token, r⟩ ⟨hm, hr⟩
  dsimp only
  split
  · exact ⟨hm, hr.drop⟩
  · exact readsEvent_nodeUnless hr.drop _ false false _ nofun
  · exact readsEvent_node (by exact hr) false false

lemma readsEvent_flowMappingValue (h : r.tokens.In t) : ReadsEvent t r.flowMappingValue := by
  unfold flowMappingValue
  refine (reads_peek h).bind ?_
  rintro ⟨token, r⟩ ⟨hm, hr⟩
  dsimp only
  split
  · exact readsEvent_nodeUnless hr.drop _ false false _ nofun
  · exact ⟨hm, hr⟩

lemma readsEvent_flowMappingEmptyValue (h : r.tokens.In t) :
    ReadsEvent t r.flowMappingEmptyValue :=
  (reads_peek h).bind fun _ hx => hx

/-! ## One event -/

/-- **An event has its mark in the text.** -/
theorem readsEvent_next (h : r.tokens.In t) : ReadsEvent t r.next := by
  unfold next
  split
  · exact (reads_peek h).bind fun _ hx => ⟨hx.1, hx.2.drop⟩
  · exact readsEvent_documentStart h _
  · exact readsEvent_documentContent h
  · exact readsEvent_documentEnd h
  · exact readsEvent_node h true false
  · exact readsEvent_blockSequenceEntry h _
  · exact readsEvent_indentlessSequenceEntry h
  · exact readsEvent_blockMappingKey h _
  · exact readsEvent_blockMappingValue h
  · exact readsEvent_flowSequenceEntry h _
  · exact readsEvent_flowPairKey h
  · exact readsEvent_flowPairValue h
  · exact readsEvent_flowPairEnd h
  · exact readsEvent_flowMappingKey h _
  · exact readsEvent_flowMappingValue h
  · exact readsEvent_flowMappingEmptyValue h
  · exact ⟨h.mark, h⟩

end EventReader

end Mosaic.Yaml
