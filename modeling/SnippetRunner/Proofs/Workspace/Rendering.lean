import SnippetRunner.Language.BuiltIn
import SnippetRunner.Proofs.Selection.LineNumbers
import SnippetRunner.Proofs.Selection.Obstruction
import SnippetRunner.Proofs.Text.Templates
import SnippetRunner.Workspace.Render

/-!
The main file of a resolved snippet holds everything that was resolved. Some templates have no
place for imports or for definitions: their languages are declared at a level below the one at
which such fragments are gathered, so that a snippet of theirs never has any.
-/
namespace SnippetRunner

def HasSlot (d : Descriptor) (name : String) : Prop :=
  .slot ⟨name.toList, none, []⟩ ∈ Text.piecesOf d.template

instance (d : Descriptor) (name : String) : Decidable (HasSlot d name) :=
  inferInstanceAs (Decidable (_ ∈ _))

/-- The template of a language has a place for all that is gathered at its level, and the
imports that are always there differ. -/
structure TemplateFits (d : Descriptor) : Prop where
  plain : ∀ p ∈ Text.piecesOf d.template,
    p.isPlain ["imports", "definitions", "body"] = true
  body : HasSlot d "body"
  imports : d.level.atLeast .import_ = false ∧ d.defaultImports = [] ∨ HasSlot d "imports"
  definitions : d.level.atLeast .file = false ∨ HasSlot d "definitions"
  defaults_once : (d.defaultImports.map Text.strip).Nodup

theorem templateFits_of_builtIn {d : Descriptor} (h : d ∈ Language.builtIn) :
    TemplateFits d := by
  have hslots : ∀ d ∈ Language.builtIn,
      (∀ p ∈ Text.piecesOf d.template, p.isPlain ["imports", "definitions", "body"] = true) ∧
      HasSlot d "body" ∧
      (d.level.atLeast .import_ = false ∧ d.defaultImports = [] ∨ HasSlot d "imports") ∧
      (d.level.atLeast .file = false ∨ HasSlot d "definitions") := by
    -- each template is read on its own
    simp only [Language.builtIn, List.forall_mem_cons]
    refine ⟨?_, ?_, ?_, ?_, ?_, ?_, ?_, ?_, ?_, ?_, List.forall_mem_nil _⟩ <;> decide +kernel
  have honce : ∀ d ∈ Language.builtIn, (d.defaultImports.map Text.strip).Nodup := by
    decide
  obtain ⟨hplain, hbody, himports, hdefinitions⟩ := hslots d h
  exact ⟨hplain, hbody, himports, hdefinitions, honce d h⟩

namespace Snippet

def slotValues (s : Snippet) : List (String × String) :=
  [("imports", Text.joinLines s.importBlock),
   ("definitions", String.intercalate "\n\n" s.definitionBlock),
   ("body", s.code)]

structure Rendered (s : Snippet) (text : String) : Prop where
  /-- The template is read before any value is put in, so that no brace of the code counts. -/
  filled : text.toList = (Text.piecesOf s.descriptor.template).flatMap (·.filled s.slotValues)
  selection : ∃ f, s.ofProvenance .selection = [f] ∧ Text.Contains text f.text
  definitions : Text.ContainsInOrder text.toList ((s.fragments.filter fun f =>
    f.provenance == .fileScope || f.provenance == .projectScope && f.relativePath.isNone).map
      (·.text))
  imports : ∀ f ∈ s.ofProvenance .import_, Text.Contains text (Text.strip f.text)
  defaults : ∀ line ∈ s.descriptor.defaultImports, Text.Contains text (Text.strip line)
  imports_once : (s.importBlock.map Text.strip).Nodup

section Imports

/-- An import is kept just if none that was kept before has the same text but for blanks. -/
theorem importBlock_go (texts : List String) {known kept : List String}
    (hknown : ∀ key, key ∈ known ↔ key ∈ kept.map Text.strip)
    (honce : (kept.map Text.strip).Nodup) :
    ((importBlock.go known texts kept).map Text.strip).Nodup ∧
      ∀ key, key ∈ (importBlock.go known texts kept).map Text.strip ↔
        key ∈ kept.map Text.strip ∨ key ∈ texts.map Text.strip := by
  induction texts generalizing known kept with
  | nil => exact ⟨honce, by simp [importBlock.go]⟩
  | cons text rest ih =>
    simp only [importBlock.go]
    by_cases hkey : Text.strip text ∈ known
    · obtain ⟨hnodup, hmem⟩ := ih hknown honce
      have hkept : Text.strip text ∈ kept.map Text.strip := (hknown _).mp hkey
      rw [if_pos (by simpa using hkey)]
      refine ⟨hnodup, fun key => ?_⟩
      rw [hmem, List.map_cons, List.mem_cons]
      constructor
      · rintro (h | h)
        · exact Or.inl h
        · exact Or.inr (Or.inr h)
      · rintro (h | rfl | h)
        · exact Or.inl h
        · exact Or.inl hkept
        · exact Or.inr h
    · rw [if_neg (by simpa using hkey)]
      have hknown' : ∀ key, key ∈ Text.strip text :: known ↔
          key ∈ (kept ++ [text]).map Text.strip := by
        intro key
        simp only [List.mem_cons, hknown, List.map_append, List.mem_append, List.map_cons,
          List.map_nil, List.not_mem_nil, or_false]
        exact or_comm
      have honce' : ((kept ++ [text]).map Text.strip).Nodup := by
        rw [List.map_append, List.nodup_append]
        refine ⟨honce, by simp, ?_⟩
        rintro a ha b hb rfl
        rw [List.map_singleton, List.mem_singleton] at hb
        exact hkey (hb ▸ (hknown a).mpr ha)
      obtain ⟨hnodup, hmem⟩ := ih hknown' honce'
      refine ⟨hnodup, fun key => ?_⟩
      rw [hmem]
      simp [or_assoc]

variable {s : Snippet}

/-- The block of imports holds each import once, the default ones included. -/
theorem importBlock_once (h : (s.descriptor.defaultImports.map Text.strip).Nodup) :
    (s.importBlock.map Text.strip).Nodup ∧
      ∀ key, key ∈ s.importBlock.map Text.strip ↔
        key ∈ s.descriptor.defaultImports.map Text.strip ∨
          key ∈ ((s.ofProvenance .import_).map (·.text)).map Text.strip :=
  importBlock_go _ (fun _ => Iff.rfl) h

/-- Each entry of the block stands stripped in the joined block. -/
theorem contains_of_importBlock {key : String} (h : key ∈ s.importBlock.map Text.strip) :
    Text.Contains (Text.joinLines s.importBlock) key := by
  obtain ⟨line, hline, rfl⟩ := List.mem_map.mp h
  exact (Text.contains_intercalate hline).trans (Text.contains_strip line)

end Imports

section Definitions

theorem definitionBlock_eq (s : Snippet) :
    s.definitionBlock = (s.fragments.filter fun f =>
      f.provenance == .fileScope || f.provenance == .projectScope && f.relativePath.isNone).map
        (·.text) := by
  have hcopied : isCopied = fun f : Fragment =>
      f.provenance == .fileScope || f.provenance == .projectScope && f.relativePath.isNone := by
    funext f
    cases hf : f.provenance <;> simp [isCopied, hf]
  rw [definitionBlock, hcopied]

theorem definitionBlock_eq_nil {s : Snippet} (hfile : s.ofProvenance .fileScope = [])
    (hproject : s.ofProvenance .projectScope = []) : s.definitionBlock = [] := by
  rw [definitionBlock_eq, List.map_eq_nil_iff, List.filter_eq_nil_iff]
  intro f hf
  have hnotFile := List.filter_eq_nil_iff.mp hfile f hf
  have hnotProject := List.filter_eq_nil_iff.mp hproject f hf
  simp_all

end Definitions

end Snippet

namespace Selection

variable {s : Site} {limits : Limits} {request : RunRequest} {d : Descriptor} {level : Level}
  {r : Resolution}

theorem atLeast_of_lower {bound : Level} (h : (level.lower d.level).atLeast bound = true) :
    d.level.atLeast bound = true := by
  simp only [Level.lower, Level.atLeast] at h ⊢
  split at h <;> simp_all
  omega

structure WithinLevel (d : Descriptor) (s : Snippet) : Prop where
  descriptor : s.descriptor = d
  selection : ∃ f, s.ofProvenance .selection = [f] ∧ s.code = f.text
  imports : d.level.atLeast .import_ = false → s.ofProvenance .import_ = []
  definitions : d.level.atLeast .file = false → s.definitionBlock = []

theorem lineSnippet_withinLevel (source : SourceFile) (first last : Int) (level : Level) :
    WithinLevel source.descriptor (lineSnippet source first last level) :=
  ⟨rfl, ⟨_, rfl, by simp [Snippet.code, Snippet.ofProvenance, lineSnippet, Text.joinLines]⟩,
    fun _ => rfl, fun _ => rfl⟩

theorem ofProvenance_selection (source : SourceFile) (first last : Int) (level : Level)
    (libraries : List Path) (context : Context)
    (himports : ∀ f ∈ context.gathered.imports, f.provenance = .import_)
    (hproject : ∀ f ∈ context.gathered.fragments, f.provenance = .projectScope) :
    (snippetWithin source first last level libraries context).ofProvenance .selection =
      [⟨source.rangeText first last, .selection, source.path, first, none⟩] := by
  have honce : ∀ f ∈ dedupe context.gathered.imports, f.provenance = .import_ := fun f hf =>
    himports f ((dedupe_onceEach _).sublist.subset hf)
  have hfile : ∀ f ∈ (context.gathered.fileDefinitions.mergeSort definitionLe).map
      (fileFragment source), f.provenance = .fileScope := by
    intro f hf
    obtain ⟨e, -, rfl⟩ := List.mem_map.mp hf
    rfl
  simp only [Snippet.ofProvenance, snippetWithin, List.filter_append]
  rw [filter_provenance_eq_nil (by decide) honce, filter_provenance_eq_nil (by decide) hproject,
    filter_provenance_eq_nil (by decide) hfile]
  rfl

theorem blockSnippet_withinLevel {source : SourceFile} {first last : Int}
    (h : blockSnippet s limits source first last (level.lower source.descriptor.level) = .ok r) :
    WithinLevel source.descriptor r.snippet := by
  rw [blockSnippet_eq_contextAt] at h
  obtain ⟨found, hsurvey, rfl⟩ := Success.map_eq_ok.mp h
  have hmarks := contextAt_provenance s source first last (level.lower source.descriptor.level)
    (surveyProject_root_none (surveyProject_of_survey hsurvey))
  have hparts := ofProvenance_snippetWithin source first last
    (level.lower source.descriptor.level) found.libraries _ hmarks.1 hmarks.2
  have hcontext : ∀ {bound : Level}, source.descriptor.level.atLeast bound = false →
      (level.lower source.descriptor.level).atLeast bound = false := by
    intro bound hbound
    by_contra hlower
    rw [atLeast_of_lower (by simpa using hlower)] at hbound
    cases hbound
  constructor
  · rfl
  · exact ⟨_, ofProvenance_selection source first last _ found.libraries _ hmarks.1 hmarks.2,
      hparts.2.2.2⟩
  · intro himport
    have hfile : source.descriptor.level.atLeast .file = false := by
      cases hd : source.descriptor.level <;> simp_all [Level.atLeast, Level.rank]
    rw [hparts.1]
    simp [contextAt, hcontext himport, hcontext hfile, dedupe, dedupe.go]
  · intro hfile
    refine Snippet.definitionBlock_eq_nil ?_ ?_
    · rw [hparts.2.2.1]
      simp [contextAt, hcontext hfile]
    · rw [hparts.2.1]
      simp [contextAt, hcontext hfile]

/-- A resolved snippet holds what the level of its language allows, and one selection. -/
theorem resolve_withinLevel (h : resolve s limits request d level = .ok r) :
    WithinLevel d r.snippet := by
  obtain ⟨source, haccepted⟩ := accepted_of_resolve h
  obtain ⟨p, -, hread⟩ := haccepted.readable
  obtain ⟨rfl, -⟩ := readSource_ok hread
  rw [resolve_eq_of_accepted s limits haccepted] at h
  split at h
  · exact blockSnippet_withinLevel h
  · cases h
    exact lineSnippet_withinLevel ..

end Selection

namespace Snippet

/-- A snippet whose template fits is rendered to a file that holds all of it. -/
theorem rendered_of_fits {s : Snippet} (hfits : TemplateFits s.descriptor)
    (hlevel : Selection.WithinLevel s.descriptor s) :
    ∃ text, s.render = .ok text ∧ s.Rendered text := by
  set text := String.ofList ((Text.piecesOf s.descriptor.template).flatMap
    (·.filled s.slotValues)) with htext
  have hfilled : Text.fillTemplate s.descriptor.template s.slotValues = .ok text :=
    Text.fillTemplate_of_isPlain hfits.plain
  have hslot : ∀ {name value : String}, HasSlot s.descriptor name →
      s.slotValues.lookup name = some value → Text.Contains text value := by
    intro name value hname hvalue
    exact Text.contains_of_slot hname (by simpa using hvalue)
  obtain ⟨honce, hkeys⟩ := importBlock_once hfits.defaults_once
  have hentry : ∀ key, key ∈ s.importBlock.map Text.strip → Text.Contains text key := by
    intro key hkey
    rcases hfits.imports with ⟨hlow, hnone⟩ | hplace
    · rw [hkeys, hnone, hlevel.imports hlow] at hkey
      simp at hkey
    · exact (hslot hplace rfl).trans (contains_of_importBlock hkey)
  refine ⟨text, ?_, ?_⟩
  · rw [render]
    exact congrArg (Except.mapError Failure.template) hfilled
  · constructor
    · rw [htext, String.toList_ofList]
    · obtain ⟨f, hf, hcode⟩ := hlevel.selection
      exact ⟨f, hf, hcode ▸ hslot hfits.body rfl⟩
    · rw [← definitionBlock_eq]
      rcases hfits.definitions with hlow | hplace
      · rw [hlevel.definitions hlow]
        trivial
      · exact (Text.containsInOrder_intercalate "\n\n" s.definitionBlock).of_contains
          (hslot hplace rfl)
    · intro f hf
      refine hentry _ ((hkeys _).mpr (Or.inr ?_))
      exact List.mem_map_of_mem (List.mem_map_of_mem hf)
    · intro line hline
      exact hentry _ ((hkeys _).mpr (Or.inl (List.mem_map_of_mem hline)))
    · exact honce

/-- Rendering loses nothing of what was resolved for a language that is known. -/
theorem render_loses_nothing {site : Site} {limits : Selection.Limits} {request : RunRequest}
    {d : Descriptor} {level : Level} {r : Selection.Resolution} (hd : d ∈ Language.builtIn)
    (hr : Selection.resolve site limits request d level = .ok r) :
    r.snippet.descriptor = d ∧
      ∃ text, r.snippet.render = .ok text ∧ r.snippet.Rendered text := by
  have hlevel := Selection.resolve_withinLevel hr
  have hdescriptor := hlevel.descriptor
  subst hdescriptor
  exact ⟨rfl, rendered_of_fits (templateFits_of_builtIn hd) hlevel⟩

section Braces

open Selection

/-- The selected line reads like a slot of the template. -/
private def braced : Site :=
  ⟨⟨[(["a.py"], .file (Text.encodeUtf8
    "body = \x7b5\x7d\n\x7bbody\x7d\n") false)]⟩, [], [], {}⟩

private def lineOfSlot : RunRequest where
  file := ⟨.root, ["a.py"]⟩
  first := 2
  last := 2
  scriptDir := ⟨.root, []⟩

private def bracedSnippet : Snippet where
  descriptor := Language.python
  level := .file
  fragments := [⟨"body = \x7b5\x7d", .fileScope, ⟨.root, ["a.py"]⟩, 1, none⟩,
    ⟨"\x7bbody\x7d", .selection, ⟨.root, ["a.py"]⟩, 2, none⟩]

private theorem resolve_braced : resolve braced {} lineOfSlot Language.python .file =
    .ok ⟨bracedSnippet, []⟩ := by cbv

/-- The braces of the file stay what they are. -/
theorem render_loses_nothing_braces :
    Language.python ∈ Language.builtIn ∧
      resolve braced {} lineOfSlot Language.python .file = .ok ⟨bracedSnippet, []⟩ ∧
      bracedSnippet.Rendered "\nbody = \x7b5\x7d\n\x7bbody\x7d\n" := by
  have hknown : Language.python ∈ Language.builtIn := by decide
  obtain ⟨-, text, htext, hrendered⟩ := render_loses_nothing hknown resolve_braced
  have hrender : bracedSnippet.render =
      .ok "\nbody = \x7b5\x7d\n\x7bbody\x7d\n" := by cbv
  cases htext.symm.trans hrender
  exact ⟨hknown, resolve_braced, hrendered⟩

end Braces

end Snippet

end SnippetRunner
