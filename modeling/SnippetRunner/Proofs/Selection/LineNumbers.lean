import SnippetRunner.Proofs.Selection.Levels
import SnippetRunner.Proofs.Selection.Mirrored
import SnippetRunner.Proofs.Text.EditorLines

/-!
The line numbers of a request. They count the lines of the file as it is cut, which are those
of an editor for the text with a line feed in the place of each line break: what is selected,
where the file ends and what is kept of a mirrored file all follow that text. It is the text of
the file, and its numbers those of an editor, just if its line breaks are line feeds.
-/
namespace SnippetRunner.Selection

open Source

def editorRange (text : String) (first last : Int) : List String :=
  ((Text.editorLines text).take last.toNat).drop (first.toNat - 1)

/-- The selected text as an editor numbers the lines: at the level of a line its first one, and
dedented in any case. -/
def editorCode (text : String) (request : RunRequest) (level : Level) : String :=
  if level.atLeast .bloc then
    Text.joinLines (Text.dedentLines (editorRange text request.first request.last))
  else Text.strip (Text.joinLines (Text.dedentLines (editorRange text request.first request.first)))

structure Asks (s : Site) (request : RunRequest) (source : SourceFile) : Prop where
  starts : 1 ≤ request.first
  ordered : request.first ≤ request.last
  path : request.sourcePath s.env = .ok source.path

/-- The lines of a file are numbered as those of an editor that holds a text, from the range
of a request to the whole files of a mirrored project. -/
structure NumberedBy (s : Site) (d : Descriptor) (source : SourceFile) (text : String) :
    Prop where
  lines : ∀ k : Nat, source.lines[k]? = (Text.editorLines text)[k]?
  range : ∀ first last, 1 ≤ first → first ≤ last →
    source.rangeLines first last = editorRange text first last
  past_end : ∀ limits request level, Asks s request source →
    ((Text.editorLines text).length : Int) < request.first →
    resolve s limits request d level = .error (.invalidRequest
      (.pastEnd request.first source.path (Text.editorLines text).length))
  clamped : ∀ limits request level, Asks s request source →
    request.first ≤ ((Text.editorLines text).length : Int) →
    resolve s limits request d level = resolve s limits
      { request with last := min request.last ((Text.editorLines text).length : Int) } d level
  code : ∀ limits request level r, Asks s request source →
    resolve s limits request d level = .ok r →
    r.snippet.code = editorCode text request (level.lower d.level)
  copy : source.text = Text.ended text
  mirrored : d.projectLayout = .mirrored → ∀ limits request level r,
    resolve s limits request d level = .ok r → ∀ f ∈ r.snippet.ofProvenance .projectScope,
    f.origin = source.path → f.text = Text.ended text

section Slices

variable {α : Type}

/-- What lies past the end is not taken. -/
theorem take_clamped (items : List α) (last : Int) :
    items.take (min last (items.length : Int)).toNat = items.take last.toNat := by
  rw [List.take_eq_take_iff]
  omega

theorem slice_of_range (items : List α) {first last : Int} (hstarts : 1 ≤ first)
    (hordered : first ≤ last) :
    Text.slice items (first - 1) last = (items.take last.toNat).drop (first.toNat - 1) := by
  have hlast : items.take (min last.toNat items.length) = items.take last.toNat := by
    rw [List.take_eq_take_iff]
    omega
  have hfirst : (first - 1).toNat = first.toNat - 1 := by omega
  unfold Text.slice Text.sliceBound
  rw [if_neg (by omega), if_neg (by omega), hlast, hfirst]
  by_cases hinside : first.toNat - 1 ≤ items.length
  · rw [Nat.min_eq_left hinside]
  · rw [List.drop_eq_nil_of_le (by simp; omega), List.drop_eq_nil_of_le (by simp; omega)]

end Slices

section Marks

variable {s : Site} {limits : Limits} {source : SourceFile} {first last : Int} {level : Level}

/-- What is gathered at a level is marked as what it is, in either layout. -/
theorem contextAt_provenance (s : Site) (source : SourceFile) (first last : Int)
    (level : Level) {root : Option Path} {files : List Path} (hroot : root = none → files = []) :
    (∀ f ∈ (contextAt s source first last level root files).gathered.imports,
        f.provenance = .import_) ∧
      ∀ f ∈ (contextAt s source first last level root files).gathered.fragments,
        f.provenance = .projectScope := by
  unfold contextAt
  split
  · cases hlayout : source.descriptor.projectLayout with
    | inline => exact contextAround_inline s source first last root files hlayout hroot
    | mirrored => exact contextAround_mirrored s source first last root files hlayout
  · refine ⟨?_, by simp⟩
    dsimp only
    split
    · exact importFragments_provenance source first last
    · simp

/-- The range alone is marked as selected. -/
theorem code_blockSnippet {r : Resolution}
    (h : blockSnippet s limits source first last level = .ok r) :
    r.snippet.code = source.rangeText first last := by
  rw [blockSnippet_eq_contextAt] at h
  obtain ⟨found, hsurvey, rfl⟩ := Success.map_eq_ok.mp h
  obtain ⟨himports, hproject⟩ := contextAt_provenance s source first last level
    (surveyProject_root_none (surveyProject_of_survey hsurvey))
  exact (ofProvenance_snippetWithin source first last level found.libraries _ himports
    hproject).2.2.2

end Marks

section Requests

variable {s : Site} {limits : Limits} {request : RunRequest} {d : Descriptor} {level : Level}
  {source : SourceFile}

theorem Asks.accepted (h : Asks s request source)
    (hread : readSource s source.path d = .ok source)
    (hinside : request.first ≤ (source.length : Int)) : Accepted s request d source :=
  ⟨h.starts, h.ordered, ⟨source.path, h.path, hread⟩, hinside⟩

theorem resolve_past_end (h : Asks s request source)
    (hread : readSource s source.path d = .ok source)
    (hpast : (source.length : Int) < request.first) :
    resolve s limits request d level =
      .error (.invalidRequest (.pastEnd request.first source.path source.length)) := by
  simp [resolve, range_not_refused h.starts h.ordered, h.path, hread, hpast, bind, Except.bind,
    throw, throwThe, MonadExceptOf.throw]

/-- Lines past the end of the file are left out of the range. -/
theorem resolve_clamped (h : Accepted s request d source) :
    resolve s limits request d level =
      resolve s limits { request with last := min request.last (source.length : Int) } d level := by
  have hclamped : Accepted s { request with last := min request.last (source.length : Int) } d
      source := by
    obtain ⟨hstarts, hordered, hreadable, hinside⟩ := h
    exact ⟨hstarts, le_min hordered hinside, hreadable, hinside⟩
  rw [resolve_eq_of_accepted s limits h, resolve_eq_of_accepted s limits hclamped]
  simp

/-- What is selected at each level, in terms of the lines of the file. -/
theorem code_of_accepted {r : Resolution} (h : Accepted s request d source)
    (hr : resolve s limits request d level = .ok r) :
    r.snippet.code =
      if (level.lower d.level).atLeast .bloc then
        source.rangeText request.first (min request.last source.length)
      else Text.strip (source.rangeText request.first request.first) := by
  rw [resolve_eq_of_accepted s limits h] at hr
  split at hr
  · rename_i hbloc
    rw [if_pos hbloc]
    exact code_blockSnippet hr
  · rename_i hbloc
    rw [if_neg hbloc]
    cases hr
    simp [Snippet.code, Snippet.ofProvenance, lineSnippet, Text.joinLines]

/-- A request that is resolved is within its file. -/
theorem Asks.inside {r : Resolution} (h : Asks s request source)
    (hread : readSource s source.path d = .ok source)
    (hr : resolve s limits request d level = .ok r) : request.first ≤ (source.length : Int) := by
  by_contra hpast
  rw [resolve_past_end h hread (by omega)] at hr
  cases hr

end Requests

section Numbers

variable {s : Site} {d : Descriptor} {source : SourceFile} {text : String}

/-- A range is cut from the lines of a file as from those of an editor with the same lines. -/
theorem rangeText_eq (hlines : source.lines = Text.editorLines text) {first last : Int}
    (hstarts : 1 ≤ first) (hordered : first ≤ last) :
    source.rangeText first last =
      Text.joinLines (Text.dedentLines (editorRange text first last)) := by
  rw [SourceFile.rangeText, SourceFile.rangeLines, slice_of_range _ hstarts hordered, hlines,
    editorRange]

theorem editorRange_clamped (text : String) (first last : Int) :
    editorRange text first (min last ((Text.editorLines text).length : Int)) =
      editorRange text first last := by
  rw [editorRange, editorRange, take_clamped]

/-- All numbers follow from the lines of the file. -/
theorem numberedBy_iff (hread : readSource s source.path d = .ok source) :
    NumberedBy s d source text ↔ source.lines = Text.editorLines text := by
  constructor
  · intro h
    exact List.ext_getElem? h.lines
  · intro hlines
    have hlength : source.length = (Text.editorLines text).length := congrArg List.length hlines
    have hcopy : source.text = Text.ended text := by
      rw [SourceFile.text, hlines, Text.joinLines_editorLines]
    constructor
    · intro k
      rw [hlines]
    · intro first last hstarts hordered
      rw [SourceFile.rangeLines, slice_of_range _ hstarts hordered, hlines, editorRange]
    · intro limits request level hasks hpast
      rw [← hlength] at hpast ⊢
      exact resolve_past_end hasks hread hpast
    · intro limits request level hasks hinside
      rw [← hlength] at hinside ⊢
      exact resolve_clamped (hasks.accepted hread hinside)
    · intro limits request level r hasks hr
      have hinside := hasks.inside hread hr
      have hordered : request.first ≤ min request.last (source.length : Int) :=
        le_min hasks.ordered hinside
      rw [code_of_accepted (hasks.accepted hread hinside) hr, editorCode,
        rangeText_eq hlines hasks.starts hordered, rangeText_eq hlines hasks.starts le_rfl, hlength,
        editorRange_clamped]
    · exact hcopy
    · intro hmirror limits request level r hr f hf horigin
      obtain ⟨file, hfile, htext⟩ := resolve_keepsFile hmirror hr f hf
      rw [horigin, hread] at hfile
      cases hfile
      exact htext.trans hcopy

end Numbers

/-- The lines of a file that can be read are numbered as those of its text with line feeds for
all line breaks. They are numbered as an editor numbers them just if there are no other line
breaks in it. -/
theorem numberedBy_editor_iff {s : Site} {p : Path} {content : String} (d : Descriptor)
    (hread : s.readText p = .ok content) :
    ∃ source, readSource s p d = .ok source ∧ source.path = p ∧
      NumberedBy s d source (Text.withFeeds content) ∧
      (NumberedBy s d source content ↔ Text.OnlyFeeds content) := by
  have hsource : readSource s p d = .ok (.ofText p d content) := by
    rw [readSource, hread]
  have hreturn : '\r' ∉ content.toList := by
    obtain ⟨octets, -, rfl⟩ := Success.map_eq_ok.mp hread
    rw [Text.normalizeNewlines, String.toList_ofList]
    exact Text.return_not_mem_normalizeChars _
  refine ⟨.ofText p d content, hsource, rfl, ?_, ?_⟩
  · exact (numberedBy_iff hsource).mpr (Text.splitLines_eq_editorLines hreturn)
  · rw [numberedBy_iff hsource]
    exact Text.splitLines_eq_editorLines_iff

section FormFeed

private def blocks : Descriptor where
  name := "b"
  level := .bloc
  extension := ".b"
  commands := []

private def formFeed : Site :=
  ⟨⟨[(["A.b"], .file (Text.encodeUtf8 "a\n\x0c\nb\n") false)]⟩, [], [], {}⟩

private def thirdLine : RunRequest where
  file := ⟨.root, ["A.b"]⟩
  first := 3
  last := 3
  scriptDir := ⟨.root, []⟩

private def blankSnippet : Snippet where
  descriptor := blocks
  level := .bloc
  fragments := [⟨"", .selection, ⟨.root, ["A.b"]⟩, 3, none⟩]

/-- The third line of an editor is the fourth one of the file, so that a blank one is selected. -/
theorem numberedBy_editor_iff_formFeed :
    (∃ source, readSource formFeed ⟨.root, ["A.b"]⟩ blocks = .ok source ∧
      ¬ NumberedBy formFeed blocks source "a\n\x0c\nb\n") ∧
    resolve formFeed {} thirdLine blocks .bloc = .ok ⟨blankSnippet, []⟩ ∧
    blankSnippet.code = "" ∧ editorCode "a\n\x0c\nb\n" thirdLine .bloc = "b" := by
  have hread : formFeed.readText ⟨.root, ["A.b"]⟩ = .ok "a\n\x0c\nb\n" := by cbv
  obtain ⟨source, hsource, -, -, hiff⟩ := numberedBy_editor_iff blocks hread
  have hfeeds : ¬ Text.OnlyFeeds "a\n\x0c\nb\n" := by
    intro h
    exact absurd (h '\x0c' (by decide) (by decide)) (by decide)
  refine ⟨⟨source, hsource, fun h => hfeeds (hiff.mp h)⟩, by cbv, by cbv, by cbv⟩

end FormFeed

end SnippetRunner.Selection
