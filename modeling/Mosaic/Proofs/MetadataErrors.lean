import Mosaic.Proofs.ActionContext
import Mosaic.Proofs.BlockRanges
import Mosaic.Proofs.FanOut
import Mosaic.Proofs.PositionRequests
import Mosaic.Proofs.SendableDiagnostics

/-!
# Where metadata errors are reported

Three units meet when an error in the metadata is reported: characters are read, the index of the
error counts their bytes, and the client gets UTF-16 units.  On top of that the metadata may be
several blocks of the file.  The error arrives at the character at which it was found, whatever
reads the metadata, if only its indices count bytes.

* `Text.characterPosition` — the position of the character with a given number.
* `Embedded.SameCharacter`, `Embedded.Joins.exists_sameCharacter` — a character of the embedded
  text as one of the file.
* `Registry.staysIn_builtinWith` — the adapters of a server stay in their texts.
* `Metadata.errorAt`, `Metadata.translate_errorAt` — the diagnostic of an error, there and in the
  file.
* `metadata_errors_located` — where errors are reported.
* `character_index_misplaced` — an index that counts characters leads to another one.
-/

namespace Mosaic

open Text

/-! ## Characters by their number -/

namespace Text

/-- The position of the character with the given number, or of the end of the text. -/
def characterPosition (t : Text) (k : Nat) : Position :=
  endPosition ⟨0, 0⟩ (t.take k)

lemma takeBytes_bytes_take (t : Text) (k : Nat) : takeBytes (bytes (t.take k)) t = t.take k := by
  have h := takeBytes_bytes_append (t.take k) (t.drop k)
  rwa [List.take_append_drop] at h

lemma dropBytes_bytes_take (t : Text) (k : Nat) : dropBytes (bytes (t.take k)) t = t.drop k := by
  have h := dropBytes_bytes_append (t.take k) (t.drop k)
  rwa [List.take_append_drop] at h

lemma isBoundary_bytes_take (t : Text) (k : Nat) : IsBoundary t (bytes (t.take k)) :=
  ⟨t.take k, t.drop k, (List.take_append_drop k t).symm, rfl⟩

lemma positionAt_bytes_take (t : Text) (k : Nat) :
    positionAt t (bytes (t.take k)) = characterPosition t k := by
  rw [positionAt, takeBytes_bytes_take, characterPosition]

/-- A part of a text starts with the character in front of which it is cut off. -/
lemma head?_slice_bytes_take {t : Text} {k stop : Nat} (h : bytes (t.take k) < stop) :
    (slice (bytes (t.take k)) stop t).head? = t[k]? := by
  obtain ⟨m, hm⟩ : ∃ m, stop - bytes (t.take k) = m + 1 := ⟨stop - bytes (t.take k) - 1, by omega⟩
  rw [slice, dropBytes_bytes_take, hm, ← List.head?_drop]
  cases t.drop k <;> rfl

lemma bytes_take_lt {t : Text} {k : Nat} (h : k < t.length) : bytes (t.take k) < bytes t := by
  have hsplit : bytes (t.take k) + bytes (t.drop k) = bytes t := by
    rw [← bytes_append, List.take_append_drop]
  have hpos : 0 < bytes (t.drop k) := bytes_pos (by simpa using h)
  omega

lemma character_positionAt_le_units (t : Text) (n : Nat) :
    (positionAt t n).character ≤ units t := by
  have hfront : _ ≤ 0 + units (takeBytes n t) := character_endPosition_le ⟨0, 0⟩ (takeBytes n t)
  have hwhole := congrArg units (takeBytes_append_dropBytes n t)
  rw [units_append] at hwhole
  unfold positionAt
  omega

end Text

/-! ## The same character in the file -/

namespace Embedded

variable {e : Embedded} {rs : List Region} {s : Segment} {n k : Nat}

/-- Character `k` of the embedded text is character `n` of the host: they are at the same place of a
block, and the block goes on there with the same character, if the embedded text goes on at all. -/
structure SameCharacter (e : Embedded) (s : Segment) (k n : Nat) : Prop where
  place : e.SamePlace s (bytes (e.host.text.take n)) (bytes (e.text.take k))
  goesOn : k < e.text.length → bytes (e.host.text.take n) < s.region.stop
  character : k < e.text.length → e.host.text[n]? = e.text[k]?

/-- The segment of an offset goes on behind it, unless the text is at its end. -/
lemma Joins.lt_localStop (h : e.Joins rs) (hat : e.segmentAt? n = some s) (hn : n < bytes e.text) :
    n < s.localStop := by
  obtain ⟨s', hs, hle, hge, hat'⟩ := h.segmentAt?_spec (h.segments_ne_nil (by omega)) hn.le
  obtain rfl : s = s' := Option.some.inj (hat.symm.trans hat')
  obtain ⟨last, hlast, -, hend, hatEnd⟩ := h.segmentAt?_spec (List.ne_nil_of_mem hs) le_rfl
  have hlies := (h.liesIn_segment hs).start_le_stop
  by_contra hstop
  rcases h.later_of_segmentAt? hatEnd hs (by omega) with rfl | ⟨-, hlater⟩
  · omega
  · -- the text of the next segment starts here, so that segment would have been found
    rcases h.segmentAt?_cases hs hs (contains_toHost hlies n)
      (by rw [toHost_of_le hge]; omega) hle hat with ⟨-, hjoint⟩ | ⟨-, -, hbefore, -⟩
    · refine hjoint ⟨?_, last, hlast, hlater⟩
      rw [toHost_of_le hge]
      simp only [Segment.localStop, Region.size] at hge hstop
      omega
    · exact Nat.not_lt.2 hlies hbefore

/-- **Each character of joined regions is one of the file**, and the end of the embedded text is a
place of the file too. -/
theorem Joins.exists_sameCharacter (h : e.Joins rs) (hne : e.segments ≠ []) (k : Nat) :
    ∃ s n, n ≤ e.host.text.length ∧ e.SameCharacter s k n ∧
      e.spanToHost (bytes (e.text.take k)) (bytes (e.text.take k))
        = (bytes (e.host.text.take n), bytes (e.host.text.take n)) := by
  have hk := isBoundary_bytes_take e.text k
  obtain ⟨s, hs, hle, hge, hat⟩ := h.segmentAt?_spec hne hk.le
  have hhost := h.isBoundary_toHost hs hle hge hk
  obtain ⟨n, hn, hto⟩ := hhost.exists_take
  have hplace := h.samePlace hs (contains_toHost (h.liesIn_segment hs).start_le_stop _) hhost
  have hback : s.localStart + (s.toHost (bytes (e.text.take k)) - s.region.start)
      = bytes (e.text.take k) := by
    rw [toHost_of_le hge]
    omega
  have hwithin (hlt : k < e.text.length) : bytes (e.text.take k) < s.localStop :=
    h.lt_localStop hat (bytes_take_lt hlt)
  have hgoes (hlt : k < e.text.length) : bytes (e.host.text.take n) < s.region.stop := by
    have hinside := hwithin hlt
    have hlies := (h.liesIn_segment hs).start_le_stop
    rw [← hto, toHost_of_le hge]
    simp only [Segment.localStop, Region.size] at hinside
    omega
  rw [hback, hto] at hplace
  refine ⟨s, n, hn, ⟨hplace, hgoes, fun hlt => ?_⟩, ?_⟩
  · rw [← head?_slice_bytes_take (hgoes hlt), ← hplace.behind, head?_slice_bytes_take (hwithin hlt)]
  · simp only [spanToHost, hat, if_pos hge, hto]

end Embedded

/-! ## The adapters of a server -/

/-- A diagnostic about a part of the embedded text stays in it. -/
lemma Diagnostic.staysIn_rangeOf {e : Embedded} {d : Diagnostic} {a b : Nat}
    (hrange : d.range = rangeOf e.text a b) (hrelated : d.related = none) : d.StaysIn e := by
  refine ⟨?_, fun related h => ?_⟩
  · rw [hrange]
    exact ⟨character_positionAt_le_units .., character_positionAt_le_units ..⟩
  · rw [hrelated] at h
    contradiction

namespace Registry

variable {yaml : Metadata.Reader}

/-- **The diagnostics of the adapters of a server stay in the texts they are about.** -/
theorem staysIn_builtinWith : (builtinWith yaml).StaysIn := by
  rintro language a h e answer hanswer d hd
  rcases get?_builtinWith h with ⟨style, rfl⟩ | rfl
  · obtain rfl := Except.ok.inj hanswer
    obtain ⟨b, -, rfl⟩ := List.mem_map.1 hd
    exact Diagnostic.staysIn_rangeOf rfl rfl
  · obtain rfl := Except.ok.inj hanswer
    unfold Metadata.diagnostics at hd
    split at hd
    · contradiction
    · contradiction
    · obtain rfl := List.mem_singleton.1 hd
      exact Diagnostic.staysIn_rangeOf rfl rfl
    · obtain rfl := List.mem_singleton.1 hd
      exact Diagnostic.staysIn_rangeOf rfl rfl

/-- The adapters of a server never call a validation off. -/
lemma patient_builtinWith : (builtinWith yaml).Patient := by
  rintro language a h e
  rcases get?_builtinWith h with ⟨style, rfl⟩ | rfl
  · rfl
  · rfl

lemma get?_builtinWith_metadata :
    (builtinWith yaml).get? metadataLanguage = some (Metadata.adapter yaml) := by
  have hregister : builtinWith yaml = register (((plainStyleLanguage :: stylePreprocessors).map
      Style.adapter).foldl register {}) (Metadata.adapter yaml) :=
    List.foldl_append
  rw [hregister, get?_register]
  exact if_pos rfl

end Registry

/-! ## Errors -/

/-- What is reported about a text that cannot be read, at the given position. -/
def Metadata.errorAt (error : ReadError) (p : Position) : Diagnostic :=
  { range := ⟨p, p⟩
    message := error.message
    severity := some .error
    source := some metadataLanguage }

/-- An error with an index is reported at the byte with this index. -/
lemma Metadata.diagnostics_of_read {yaml : Reader} {t : Text} {error : ReadError} {index : Nat}
    (hread : yaml t = .error error) (hindex : error.index? = some index) :
    diagnostics yaml t = [errorAt error (positionAt t index)] := by
  simp only [diagnostics, hread, hindex, Option.getD_some, errorAt]

/-- What is reported about an embedded text is shown where its place is in the file. -/
lemma Metadata.translate_errorAt {e : Embedded} {error : ReadError} {k n : Nat}
    (hmode : e.mode = .offset)
    (hspan : e.spanToHost (bytes (e.text.take k)) (bytes (e.text.take k))
      = (bytes (e.host.text.take n), bytes (e.host.text.take n))) :
    (errorAt error (characterPosition e.text k)).translate e.uri e.rangeToHost?
      = some (errorAt error (characterPosition e.host.text n)) := by
  have hk := isBoundary_bytes_take e.text k
  have hrange := Embedded.rangeToHost?_rangeOf hmode hk hk le_rfl
  rw [hspan] at hrange
  simp only [rangeOf, positionAt_bytes_take] at hrange
  exact Diagnostic.translate_eq_some_iff.2 ⟨hrange, rfl, rfl⟩

/-- A file with metadata is open, with an adapter for it, and no adapter calls a validation off. -/
structure Router.ServesMetadata (r : Router) (yaml : Metadata.Reader) (key : String)
    (file : Snapshot) : Prop where
  isOpen : r.store.get? key = some file
  block : metadataLanguage ∈ file.blockLanguages
  adapter : r.adapters.get? metadataLanguage = some (Metadata.adapter yaml)
  patient : r.adapters.Patient

/-- The metadata of a file is one of the documents that are validated. -/
lemma Router.ServesMetadata.mem_services {r : Router} {yaml : Metadata.Reader} {key : String}
    {file : Snapshot} (h : r.ServesMetadata yaml key file) :
    ⟨Metadata.adapter yaml, .ofLanguage file metadataLanguage⟩ ∈ r.services file := by
  refine List.mem_append_left _ (List.mem_filterMap.2 ⟨metadataLanguage, h.block, ?_⟩)
  rw [h.adapter, Option.map_some]

/-- **YAML errors are reported at the character where they were found.**  The index of an error
counts the bytes of the characters that were read before it, also where a character takes
several.  The adapter reports the error at the position of the character with their number, and
whenever the diagnostics of an open file are answered the error is among them, at the position of
that same character of the file.  They are answered if all adapters stay in their texts, as those of
a server do (`Registry.staysIn_builtinWith`), and the file has less than 4 GiB. -/
theorem metadata_errors_located (yaml : Metadata.Reader) (hcounts : yaml.CountsBytes)
    (e : Embedded) (error : Metadata.ReadError) (index : Nat) (hread : yaml e.text = .error error)
    (hindex : error.index? = some index) :
    ∃ k ≤ e.text.length, index = bytes (e.text.take k) ∧
      ((Metadata.adapter yaml).validate e).answer
        = .ok [Metadata.errorAt error (characterPosition e.text k)] ∧
      ∀ (options : ScanOptions) (uri id : String) (version : Int) (source : Text) (r : Router)
        (key : String), r.ServesMetadata yaml key (.ofText options uri id version source) →
        e = .ofLanguage (.ofText options uri id version source) metadataLanguage →
        ∃ s n, n ≤ source.length ∧ e.SameCharacter s k n ∧
          (∀ shown, (r.diagnostics key false).result = .ok shown →
            Metadata.errorAt error (characterPosition source n) ∈ shown) ∧
          (r.adapters.StaysIn → bytes source < wordLimit →
            ∃ shown, (r.diagnostics key false).result = .ok shown) := by
  obtain ⟨k, hk, hbytes⟩ := hcounts e.text error index hread hindex
  have hreport : ((Metadata.adapter yaml).validate e).answer
      = .ok [Metadata.errorAt error (characterPosition e.text k)] := by
    rw [← positionAt_bytes_take, ← hbytes]
    exact congrArg _ (Metadata.diagnostics_of_read hread hindex)
  refine ⟨k, hk, hbytes, hreport, ?_⟩
  rintro options uri id version source r key hserves rfl
  have hjoins := Embedded.joins_ofLanguage options uri id version source metadataLanguage
  obtain ⟨s, n, hn, hsame, hspan⟩ :=
    hjoins.exists_sameCharacter (Router.segments_ofLanguage_ne_nil hserves.block) k
  refine ⟨s, n, hn, hsame, fun shown hshown => ?_, fun hstays hsize => ?_⟩
  · exact Router.mem_diagnostics hserves.isOpen hserves.mem_services
      (fun s hs => Router.cancels_of_patient hserves.patient hs) hreport (by simp)
      (Metadata.translate_errorAt rfl hspan) hshown
  · obtain ⟨shown, hshown⟩ := Router.exists_diagnostics hstays hsize
    exact ⟨shown, (Router.diagnostics_eq_ok_iff hserves.patient hserves.isOpen).2 hshown⟩

/-- A character of four bytes and two units before the error. -/
theorem metadata_errors_located_behind_pair :
    let yaml : Metadata.Reader := fun t =>
      if t = "😀: b: c".toList then
        .error ⟨"mapping values are not allowed in this context at line 1 column 5", some 7⟩
      else .ok .mapping
    let source : Text := "<script lang=\"yml\">😀: b: c</script>".toList
    let file := Snapshot.ofText {} "file:///a" "sfc" 1 source
    let e := Embedded.ofLanguage file metadataLanguage
    let r : Router := ⟨({} : Store).put file, .builtinWith yaml⟩
    yaml.CountsBytes ∧ r.ServesMetadata yaml "file:///a" file ∧ ∃ error shown,
      yaml e.text = .error error ∧ error.index? = some 7 ∧
      ((Metadata.adapter yaml).validate e).answer = .ok [Metadata.errorAt error ⟨0, 5⟩] ∧
      (r.diagnostics "file:///a" false).result = .ok shown ∧
      Metadata.errorAt error ⟨0, 24⟩ ∈ shown := by
  intro yaml source file e r
  have hcounts : yaml.CountsBytes := by
    intro t error index hread hindex
    simp only [yaml] at hread
    split at hread
    next ht =>
      obtain rfl := Except.error.inj hread
      obtain rfl := Option.some.inj hindex
      exact ⟨4, by simp [ht], by rw [ht]; decide⟩
    next => contradiction
  have hserves : r.ServesMetadata yaml "file:///a" file :=
    ⟨Std.TreeMap.getElem?_insert_self, by decide +kernel, Registry.get?_builtinWith_metadata,
      Registry.patient_builtinWith⟩
  have htext : e.text = "😀: b: c".toList := by decide +kernel
  have hsegments : e.segments = [⟨.block "yml" 19 29, 0⟩] := by decide +kernel
  obtain ⟨error, hread, hindex⟩ : ∃ error, yaml e.text = .error error ∧ error.index? = some 7 :=
    ⟨_, if_pos htext, rfl⟩
  obtain ⟨k, hk, hbytes, hanswer, hfile⟩ :=
    metadata_errors_located yaml hcounts e error 7 hread hindex
  obtain ⟨s, n, hn, hsame, hmem, hanswered⟩ :=
    hfile {} "file:///a" "sfc" 1 source r "file:///a" hserves rfl
  obtain ⟨shown, hshown⟩ := hanswered Registry.staysIn_builtinWith (by decide +kernel)
  obtain rfl : s = ⟨.block "yml" 19 29, 0⟩ := by simpa [hsegments] using hsame.place.mem
  have hhost : bytes (source.take n) = 26 := by
    have hoffset : bytes (e.text.take k) = 0 + (bytes (source.take n) - 19) := hsame.place.offset
    have hstart : 19 ≤ bytes (source.take n) := (Region.contains_iff.1 hsame.place.contains).1
    omega
  have hplace := hmem shown hshown
  rw [← positionAt_bytes_take, ← hbytes, htext] at hanswer
  rw [← positionAt_bytes_take, hhost] at hplace
  exact ⟨hcounts, hserves, error, shown, hread, hindex, hanswer, hshown, hplace⟩

/-- If the index of an error were the number of characters in front of it, the error would be
reported at another one: the colon that is no place for a mapping is the character with the number 4
at `0:5`, and would be reported at `0:2`.  Its index counts bytes and is 7, and is not its number:
the character with this number is at `0:8`. -/
theorem character_index_misplaced :
    let t : Text := "😀: b: cdef".toList
    let error (index : Nat) : Metadata.ReadError :=
      ⟨"mapping values are not allowed in this context at line 1 column 5", some index⟩
    let yaml (index : Nat) : Metadata.Reader := fun u =>
      if u = t then .error (error index) else .ok .mapping
    t[4]? = some ':' ∧ characterPosition t 4 = ⟨0, 5⟩ ∧
      Metadata.diagnostics (yaml 4) t = [Metadata.errorAt (error 4) ⟨0, 2⟩] ∧
      characterPosition t 7 = ⟨0, 8⟩ ∧
      Metadata.diagnostics (yaml 7) t = [Metadata.errorAt (error 7) ⟨0, 5⟩] := by
  intro t error yaml
  have hread (index : Nat) : yaml index t = .error (error index) := if_pos rfl
  have hfour : positionAt t 4 = ⟨0, 2⟩ := by decide +kernel
  have hseven : positionAt t 7 = ⟨0, 5⟩ := by decide +kernel
  refine ⟨rfl, by decide +kernel, ?_, by decide +kernel, ?_⟩
  · rw [Metadata.diagnostics_of_read (hread 4) rfl, hfour]
  · rw [Metadata.diagnostics_of_read (hread 7) rfl, hseven]

end Mosaic
