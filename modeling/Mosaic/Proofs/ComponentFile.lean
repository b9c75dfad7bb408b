import Mosaic.Proofs.RegionPlace
import Mosaic.Proofs.TagReading

/-!
# The regions of a well-formed component file

A component file as people write it: metadata between dashes, and then blocks of styles and scripts
with white space between them.  Its regions are just what was put in.

* `CodeBlock`, `MetadataBlock`, `ComponentFile` — such a file, and its text.
* `Scan.metadataBlock?_written`, `Scan.metadataBlock?_of_blanks` — loose text with metadata, and
  white space.
* `ScanState.passes_block` — one block, from one state between blocks to the next.
* `ScanState.regions_blocks` — all blocks, by induction.
* `scan_component_file` — the regions of the file.
-/

namespace Mosaic

open Text Markup

/-! ## Files as they are written -/

/-- The value of a `lang` attribute in double quotes. -/
abbrev LangText := { l : Text // '"' ∉ l }

/-- A block of styles or a script, with the white space behind it. -/
structure CodeBlock where
  element : RawElement
  lang : Option LangText
  content : Text
  gap : Text
  filled : content ≠ []
  raw : StaysRaw element content
  blanks : ∀ c ∈ gap, isBlank c

namespace CodeBlock

/-- The text of the start tag. -/
def openTag (b : CodeBlock) : Text :=
  '<' :: b.element.name ++
    b.lang.elim [] (fun l => [' ', 'l', 'a', 'n', 'g', '=', '"'] ++ l.1 ++ ['"']) ++ ['>']

/-- The text of the block. -/
def written (b : CodeBlock) : Text :=
  b.openTag ++ (b.content ++ (['<', '/'] ++ b.element.name ++ ['>'] ++ b.gap))

/-- The language that the start tag asks for. -/
def langId (b : CodeBlock) : Option String :=
  b.lang.map fun l => String.ofList (lower (trim l.1))

/-- The language of the block. -/
def language (options : ScanOptions) (b : CodeBlock) : String :=
  match b.element with
  | .style => styleLanguage b.langId
  | .script => scriptLanguage b.langId options.scriptLanguage

/-- The region of the content, if the block stands at offset `n`. -/
def region (options : ScanOptions) (n : Nat) (b : CodeBlock) : Region :=
  .block (b.language options) (n + bytes b.openTag) (n + bytes b.openTag + bytes b.content)

/-- The regions of blocks, the first of which stands at offset `n`. -/
def regionsFrom (options : ScanOptions) : Nat → List CodeBlock → List Region
  | _, [] => []
  | n, b :: bs => b.region options n :: regionsFrom options (n + bytes b.written) bs

end CodeBlock

/-- Metadata between dashes, with the white space behind it. -/
structure MetadataBlock where
  content : Text
  gap : Text
  filled : content ≠ []
  noMarkup : '<' ∉ content
  noDashes : content.head? ≠ some '-' ∧ content.getLast? ≠ some '-'
  blanks : ∀ c ∈ gap, isBlank c

/-- The text of the metadata. -/
def MetadataBlock.written (m : MetadataBlock) : Text :=
  ['-', '-', '-'] ++ m.content ++ ['-', '-', '-'] ++ m.gap

/-- A component file without a template. -/
structure ComponentFile where
  lead : Text
  metadata : Option MetadataBlock
  blocks : List CodeBlock
  blanks : ∀ c ∈ lead, isBlank c

namespace ComponentFile

/-- The loose text before the first block. -/
def front (f : ComponentFile) : Text :=
  f.lead ++ f.metadata.elim [] MetadataBlock.written

/-- The text of the file. -/
def written (f : ComponentFile) : Text :=
  f.front ++ f.blocks.flatMap CodeBlock.written

/-- What the file is made of: its metadata and the content of each block, in order. -/
def regions (options : ScanOptions) (f : ComponentFile) : List Region :=
  let start := bytes f.lead + 3
  f.metadata.elim [] (fun m => [.block metadataLanguage start (start + bytes m.content)]) ++
    CodeBlock.regionsFrom options (bytes f.front) f.blocks

end ComponentFile

/-! ## Loose text -/

namespace Scan

/-- White space around a text is trimmed off, up to what is not white space. -/
lemma trim_append {before inner after : Text} (hbefore : ∀ c ∈ before, isBlank c)
    (hafter : ∀ c ∈ after, isBlank c) (hhead : ∀ c ∈ (inner ++ after).head?, ¬ isBlank c)
    (hlast : ∀ c ∈ inner.reverse.head?, ¬ isBlank c) :
    trim (before ++ (inner ++ after)) = inner := by
  have hreverse : ∀ c ∈ after.reverse, isBlank c := fun c hc => hafter c (List.mem_reverse.1 hc)
  rw [trim, trimStart, dropWhile_append hbefore hhead, trimEnd, List.reverse_append,
    dropWhile_append hreverse hlast, List.reverse_reverse]

/-- White space is no metadata. -/
lemma metadataBlock?_of_blanks {t : Text} (h : ∀ c ∈ t, isBlank c) (n : Nat) :
    metadataBlock? n t = none := by
  have htrim : trim (t ++ ([] ++ [])) = [] := trim_append h (by simp) (by simp) (by simp)
  rw [List.append_nil, List.append_nil] at htrim
  simp [metadataBlock?, htrim]

/-- Dashes end where other text begins. -/
lemma length_takeWhile_dashes {t : Text} (h : t.head? ≠ some '-') (hne : t ≠ []) (after : Text) :
    ((['-', '-', '-'] ++ (t ++ after)).takeWhile (· == '-')).length = 3 := by
  rw [takeWhile_append (by simp)]
  · rfl
  · intro c hc hdash
    cases t with
    | nil => contradiction
    | cons x t =>
      obtain rfl : x = c := by simpa using hc
      exact h (by simpa using hdash)

/-- **Metadata between dashes are found where they stand.** -/
lemma metadataBlock?_written (m : MetadataBlock) {lead : Text} (hlead : ∀ c ∈ lead, isBlank c)
    (n : Nat) :
    metadataBlock? n (lead ++ m.written)
      = some (.block metadataLanguage (n + bytes lead + 3)
          (n + bytes lead + 3 + bytes m.content)) := by
  obtain ⟨content, gap, filled, noMarkup, ⟨hhead, hlast⟩, blanks⟩ := m
  let dashes : Text := ['-', '-', '-']
  have hblank : ¬ isBlank '-' := by decide
  have htrim : trim (lead ++ (dashes ++ (content ++ dashes) ++ gap))
      = dashes ++ (content ++ dashes) :=
    trim_append hlead blanks (by simp [dashes, hblank]) (by simp [dashes, hblank])
  have hstart : (lead ++ (dashes ++ (content ++ dashes) ++ gap)).takeWhile isBlank = lead :=
    takeWhile_append hlead (by simp [dashes, hblank])
  have hreverse : (dashes ++ (content ++ dashes)).reverse
      = dashes ++ (content.reverse ++ dashes) := by
    simp [dashes]
  have hopening : ((dashes ++ (content ++ dashes)).takeWhile (· == '-')).length = 3 :=
    length_takeWhile_dashes hhead filled dashes
  have hclosing : ((dashes ++ (content.reverse ++ dashes)).takeWhile (· == '-')).length = 3 :=
    length_takeWhile_dashes (by simpa using hlast) (by simpa using filled) dashes
  have hlength : dashes.length = 3 := rfl
  have hbytes : bytes dashes = 3 := rfl
  have hwhole : 3 ≠ (dashes ++ (content ++ dashes)).length := by
    rw [List.length_append, List.length_append, hlength]
    omega
  have hstop : n + bytes lead + (3 + (bytes content + 3)) - 3
      = n + bytes lead + 3 + bytes content := by
    omega
  have hwritten : (⟨content, gap, filled, noMarkup, ⟨hhead, hlast⟩, blanks⟩ : MetadataBlock).written
      = dashes ++ (content ++ dashes) ++ gap := by
    simp [MetadataBlock.written, dashes]
  simp only [metadataBlock?, hwritten, htrim, hreverse, hopening, hclosing, hstart, lt_irrefl,
    false_or, if_neg hwhole, bytes_append, hbytes, hstop]

end Scan

/-! ## Blocks -/

namespace CodeBlock

/-- A `lang` attribute. -/
def langAttribute (l : LangText) : Attribute where
  gap := [' ']
  name := ['l', 'a', 'n', 'g']
  value := some ⟨[], [], l.1, by simp, by simp, l.2⟩
  gapped := by simp
  blanks := List.all_eq_true.1 (by decide)
  named := by simp
  chars := List.all_eq_true.1 (by decide)

/-- The start tag of a block. -/
def head (b : CodeBlock) : TagHead where
  name := b.element.name
  attributes := b.lang.toList.map langAttribute
  tail := []
  named := b.element.isTagName_name
  blanks := by simp

lemma written_head (b : CodeBlock) : b.openTag = b.head.written ++ ['>'] := by
  obtain ⟨element, _ | l, content, gap, _, _, _⟩ := b
  · simp [openTag, head, TagHead.written]
  · simp [openTag, head, TagHead.written, langAttribute, Attribute.written, QuotedValue.written,
      QuotedValue.quoted]

end CodeBlock

namespace ScanState

open Scan

variable {options : ScanOptions} {source tag rest : Text} {seen seen' : Bool}
  {run : Option (Nat × Text)} {found : List Region} {n : Nat}

/-- The state of a pass between blocks, after some loose text. -/
def between (seen : Bool) (run : Option (Nat × Text)) : ScanState :=
  { run, metadataSeen := seen }

/-- The state of a pass in a block. -/
def inBlock (seen : Bool) (lang : Option String) : ScanState :=
  { depth := 1, lang, metadataSeen := seen }

/-- After some loose text a pass is between blocks again. -/
lemma exists_endRun (seen : Bool) (run : Option (Nat × Text)) :
    ∃ seen', (between seen run).endRun.1 = between seen' none := by
  unfold endRun between
  split
  next h =>
    subst h
    exact ⟨seen, rfl⟩
  · split
    · exact ⟨seen, rfl⟩
    · split
      · exact ⟨seen, rfl⟩
      · exact ⟨true, rfl⟩

/-- White space between blocks yields nothing. -/
lemma endRun_of_blanks {gap : Text} (h : ∀ c ∈ gap, isBlank c) :
    (between seen (some (n, gap))).endRun.2 = [] := by
  cases seen <;> simp [endRun, between, metadataBlock?_of_blanks h]

lemma langValue_quoted (l : Text) :
    langValue ('"' :: (l ++ ['"'])) = String.ofList (lower (trim l)) := by
  simp [langValue, unquote, quoted?]

/-- The start tag of a block ends the loose text, and says which language the block is in. -/
lemma yields_openTag (b : CodeBlock)
    (htag : ¬ sameIgnoringCase b.element.name options.templateTag.toList)
    (hseen : (between seen run).endRun.1 = between seen' none) (m m' m'' : Nat) :
    Yields options source (between seen run)
      (⟨.startTag, m, b.element.name⟩ ::
        (Attribute.tokensFrom m' b.head.attributes ++ [⟨.startTagClose, m'', ['>']⟩]))
      (between seen run).endRun.2 (inBlock seen' b.langId) := by
  have hstart : (between seen run).step options source ⟨.startTag, m, b.element.name⟩
      = (inBlock seen' none, (between seen run).endRun.2) := by
    have hphase : (between seen run).phase = .outside := rfl
    simp only [step, hphase, reduceCtorEq, false_and, if_false, hseen]
    simp [stepOutside, between, inBlock, htag]
  have hattributes : Yields options source (inBlock seen' none)
      (Attribute.tokensFrom m' b.head.attributes ++ [⟨.startTagClose, m'', ['>']⟩]) []
      (inBlock seen' b.langId) := by
    obtain ⟨element, _ | l, content, gap, _, _, _⟩ := b
    · exact Yields.of_step rfl
    · have hname : (inBlock seen' none).step options source
          ⟨.attributeName, m' + 1, ['l', 'a', 'n', 'g']⟩
            = ({ inBlock seen' none with name := some ['l', 'a', 'n', 'g'] }, []) := rfl
      have hvalue (k : Nat) : ScanState.step options source
          { inBlock seen' none with name := some ['l', 'a', 'n', 'g'] }
          ⟨.attributeValue, k, '"' :: (l.1 ++ ['"'])⟩
            = (inBlock seen' (some (String.ofList (lower (trim l.1)))), []) := by
        rw [← langValue_quoted]
        rfl
      exact ((Yields.of_step hname).trans (Yields.of_step (hvalue _))).trans (Yields.of_step rfl)
  have hread := (Yields.of_step hstart).trans hattributes
  rwa [List.append_nil] at hread

/-- The content of a block is its region. -/
lemma step_content (b : CodeBlock) (m : Nat) :
    (inBlock seen b.langId).step options source ⟨b.element.kind, m, b.content⟩
      = (inBlock seen none,
        [.block (b.language options) m (m + bytes b.content)]) := by
  unfold CodeBlock.language
  cases he : b.element <;>
    simp [step, inBlock, endRun, stepOutside, RawElement.kind, Token.stop]

lemma step_endTag (m : Nat) (name : Text) :
    (inBlock seen none).step options source ⟨.endTag, m, name⟩ = (between seen none, []) := rfl

lemma step_endTagClose (m : Nat) (t : Text) :
    (between seen none).step options source ⟨.endTagClose, m, t⟩ = (between seen none, []) := rfl

/-- Loose text between blocks. -/
lemma step_loose (m : Nat) (t : Text) :
    (between seen none).step options source ⟨.other, m, t⟩ = (between seen (some (m, t)), []) := rfl

/-- The start tag of a block. -/
lemma passes_openTag (b : CodeBlock)
    (htag : ¬ sameIgnoringCase b.element.name options.templateTag.toList)
    (hseen : (between seen run).endRun.1 = between seen' none) :
    Passes options source (between seen run) ⟨.content, tag, n, b.openTag ++ rest⟩
      (between seen run).endRun.2 (inBlock seen' b.langId)
      ⟨.raw b.element, b.element.name, n + bytes b.openTag, rest⟩ := by
  have hmode : Mode.afterStartTag b.head.name = .raw b.element :=
    RawElement.afterStartTag_of_same (beq_self_eq_true _)
  rw [b.written_head, List.append_assoc, List.singleton_append, bytes_append, ← Nat.add_assoc,
    ← hmode]
  exact .of_reads (.openTag b.head) (yields_openTag b htag hseen _ _ _)

/-- The end tag of a block. -/
lemma passes_endTag (e : RawElement) :
    Passes options source (inBlock seen none)
      ⟨.content, tag, n, ['<', '/'] ++ e.name ++ ['>'] ++ rest⟩ [] (between seen none)
      ⟨.content, tag, n + bytes (['<', '/'] ++ e.name ++ ['>']), rest⟩ := by
  have hname : Cursor.Reads ⟨.content, tag, n, '<' :: '/' :: (e.name ++ '>' :: rest)⟩ _ _ :=
    .endTag e.isTagName_name (by simp [isNameChar])
  have hclose : Cursor.Reads ⟨.insideEndTag, tag, n + 2 + bytes e.name, [] ++ '>' :: rest⟩ _ _ :=
    .closeEndTag (by simp)
  have hyields : Yields options source (inBlock seen none)
      ([⟨.endTag, n + 2, e.name⟩] ++ [⟨.endTagClose, n + 2 + bytes e.name, ['>']⟩]) []
      (between seen none) :=
    (Yields.of_step (step_endTag _ _)).trans (Yields.of_step (step_endTagClose _ _))
  have hbytes : n + bytes (['<', '/'] ++ e.name ++ ['>']) = n + 2 + bytes e.name + 1 := by
    cases e <;> rfl
  rw [hbytes]
  simpa using Passes.of_reads (hname.trans hclose) hyields

/-- A block between loose text and loose text. -/
lemma passes_block (source tag rest : Text) (n : Nat) (b : CodeBlock)
    (htag : ¬ sameIgnoringCase b.element.name options.templateTag.toList)
    (hseen : (between seen run).endRun.1 = between seen' none) :
    ∃ m, m + bytes b.gap = n + bytes b.written ∧
      Passes options source (between seen run) ⟨.content, tag, n, b.written ++ rest⟩
        ((between seen run).endRun.2 ++ [b.region options n]) (between seen' none)
        ⟨.content, b.element.name, m, b.gap ++ rest⟩ := by
  let start := n + bytes b.openTag
  let stop := start + bytes b.content
  let closing := ['<', '/'] ++ b.element.name ++ ['>']
  have hopen : Passes options source (between seen run)
      ⟨.content, tag, n, b.openTag ++ (b.content ++ (closing ++ (b.gap ++ rest)))⟩
      (between seen run).endRun.2 (inBlock seen' b.langId) _ := passes_openTag b htag hseen
  have hcloses : startsIgnoringCase b.element.closing (closing ++ (b.gap ++ rest)) := by
    rw [b.element.closing_eq, List.append_assoc, List.append_assoc, ← List.append_assoc]
    exact startsIgnoringCase_append ..
  have hcontent : Passes options source (inBlock seen' b.langId)
      ⟨.raw b.element, b.element.name, start, b.content ++ (closing ++ (b.gap ++ rest))⟩
      [b.region options n] (inBlock seen' none)
      ⟨.content, b.element.name, stop, closing ++ (b.gap ++ rest)⟩ :=
    Passes.of_reads (Cursor.Reads.raw b.filled b.raw hcloses)
      (Yields.of_step (step_content b start))
  have hclose : Passes options source (inBlock seen' none)
      ⟨.content, b.element.name, stop, closing ++ (b.gap ++ rest)⟩ [] (between seen' none) _ :=
    passes_endTag b.element
  refine ⟨stop + bytes closing, ?_, ?_⟩
  · simp only [CodeBlock.written, bytes_append, stop, start, closing]
    omega
  · have hread := (hopen.trans hcontent).trans hclose
    simpa [CodeBlock.written, closing] using hread

/-! ## Files -/

lemma opensMarkup_written (bs : List CodeBlock) :
    bs.flatMap CodeBlock.written = [] ∨ opensMarkup (bs.flatMap CodeBlock.written) := by
  cases bs with
  | nil => exact Or.inl rfl
  | cons b bs =>
    refine Or.inr ?_
    rw [List.flatMap_cons, CodeBlock.written, CodeBlock.openTag]
    cases b.element <;> rfl

/-- The regions of blocks are those of their contents, after what the loose text before them
yields. -/
lemma regions_blocks (bs : List CodeBlock)
    (htag : ∀ b ∈ bs, ¬ sameIgnoringCase b.element.name options.templateTag.toList) :
    regions options source (between seen run)
        (Cursor.tokens ⟨.content, tag, n, bs.flatMap CodeBlock.written⟩)
      = (between seen run).endRun.2 ++ CodeBlock.regionsFrom options n bs := by
  induction bs generalizing seen run tag n with
  | nil => rw [List.flatMap_nil, Cursor.tokens, dif_pos rfl, regions, CodeBlock.regionsFrom,
      List.append_nil]
  | cons b bs ih =>
    have hothers (c : CodeBlock) (hc : c ∈ bs) := htag c (List.mem_cons_of_mem b hc)
    obtain ⟨seen', hseen⟩ := exists_endRun seen run
    obtain ⟨m, hm, hblock⟩ := passes_block source tag (bs.flatMap CodeBlock.written) n b
      (htag b (by simp)) hseen
    rw [List.flatMap_cons, hblock, CodeBlock.regionsFrom, ← hm]
    by_cases hgap : b.gap = []
    · rw [hgap, List.nil_append, ih hothers]
      simp [between, endRun]
    · have hlt : '<' ∉ b.gap := fun h => absurd (b.blanks '<' h) (by decide)
      have hloose : Passes options source (between seen' none)
          ⟨.content, b.element.name, m, b.gap ++ bs.flatMap CodeBlock.written⟩ [] _ _ :=
        .of_reads (.text hgap hlt (opensMarkup_written bs)) (.of_step (step_loose m b.gap))
      rw [hloose, ih hothers, endRun_of_blanks b.blanks]
      simp

end ScanState

/-- **The regions of a well-formed component file are what was put in**: the metadata, if there are
any, and the content of each block, in the language that its start tag asks for.  No block may have
the name of the template element, which is compared like all names of elements. -/
theorem scan_component_file (options : ScanOptions) (f : ComponentFile)
    (htag : ∀ b ∈ f.blocks, ¬ sameIgnoringCase b.element.name options.templateTag.toList) :
    scan options f.written = f.regions options := by
  have hstart : scan options f.written = ScanState.regions options f.written (.between false none)
      (Cursor.tokens ⟨.content, [], 0, f.front ++ f.blocks.flatMap CodeBlock.written⟩) := rfl
  by_cases hfront : f.front = []
  · -- the file begins with a block
    have hmetadata : f.metadata = none := by
      cases h : f.metadata with
      | none => rfl
      | some m => simp [ComponentFile.front, MetadataBlock.written, h] at hfront
    rw [hstart, hfront, List.nil_append, ScanState.regions_blocks _ htag]
    simp [ComponentFile.regions, hmetadata, hfront, ScanState.endRun, ScanState.between]
  · have hlt : '<' ∉ f.front := by
      have hblank {t : Text} (h : ∀ c ∈ t, isBlank c) : '<' ∉ t :=
        fun hm => absurd (h '<' hm) (by decide)
      cases h : f.metadata with
      | none => simpa [ComponentFile.front, h] using hblank f.blanks
      | some m =>
        simp [ComponentFile.front, MetadataBlock.written, h, hblank f.blanks, hblank m.blanks,
          m.noMarkup]
    have hloose : ScanState.Passes options f.written (.between false none)
        ⟨.content, [], 0, f.front ++ f.blocks.flatMap CodeBlock.written⟩ [] _ _ :=
      .of_reads (.text hfront hlt (ScanState.opensMarkup_written f.blocks))
        (.of_step (ScanState.step_loose 0 f.front))
    rw [hstart, hloose, ScanState.regions_blocks _ htag, List.nil_append, Nat.zero_add,
      ComponentFile.regions]
    congr 1
    cases h : f.metadata with
    | none =>
      have hfrontOf : f.front = f.lead := by simp [ComponentFile.front, h]
      rw [hfrontOf, ScanState.endRun_of_blanks f.blanks]
      rfl
    | some m =>
      have hfrontOf : f.front = f.lead ++ m.written := by simp [ComponentFile.front, h]
      rw [hfrontOf]
      simp [ScanState.endRun, ScanState.between, Scan.metadataBlock?_written m f.blanks]

/-- A file with metadata, a style block that names its language and a script in which another
element seems to end. -/
theorem scan_component_file_two_blocks :
    ¬ sameIgnoringCase ['s', 't', 'y', 'l', 'e'] "html".toList ∧
      ¬ sameIgnoringCase ['s', 'c', 'r', 'i', 'p', 't'] "html".toList ∧
      scan {} "---a: 1---\n<style lang=\" SCSS\">b{}</style>\n<script>'</style>'</script>".toList
        = [.block "yml" 3 7, .block "scss" 31 34, .block "js" 51 61] := by
  let metadata : MetadataBlock :=
    ⟨"a: 1".toList, ['\n'], by decide, by decide, by decide, List.all_eq_true.1 (by decide)⟩
  let style : CodeBlock :=
    ⟨.style, some ⟨" SCSS".toList, by decide⟩, "b{}".toList, ['\n'], by decide,
      by decide, List.all_eq_true.1 (by decide)⟩
  let script : CodeBlock :=
    ⟨.script, none, "'</style>'".toList, [], by decide, by decide, by simp⟩
  let file : ComponentFile := ⟨[], some metadata, [style, script], by simp⟩
  have htag (b : CodeBlock) (_ : b ∈ file.blocks) :
      ¬ sameIgnoringCase b.element.name "html".toList := by
    cases b.element <;> decide
  have hwritten : file.written
      = "---a: 1---\n<style lang=\" SCSS\">b{}</style>\n<script>'</style>'</script>".toList := by
    decide +kernel
  have hregions : file.regions {}
      = [.block "yml" 3 7, .block "scss" 31 34, .block "js" 51 61] := by
    decide +kernel
  rw [← hwritten, scan_component_file {} file htag, hregions]
  exact ⟨htag style (by simp [file]), htag script (by simp [file]), rfl⟩

/-- If the template element has the name of a block, though in other letters, the block is taken for
the template. -/
theorem style_taken_for_template :
    let options : ScanOptions := { templateTag := "STYLE" }
    let style : CodeBlock := ⟨.style, none, ['a'], [], by decide, by decide, by simp⟩
    let file : ComponentFile := ⟨[], none, [style], by simp⟩
    options.templateTag ≠ "style" ∧ options.templateTag ≠ "script" ∧
      file.regions options = [.block "css" 7 8] ∧
      scan options file.written = [.block "html" 7 8] := by
  decide +kernel

end Mosaic
