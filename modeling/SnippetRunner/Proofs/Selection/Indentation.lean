import SnippetRunner.Proofs.Selection.Accounting
import SnippetRunner.Proofs.Selection.Imported
import SnippetRunner.Proofs.Selection.LineNumbers
import SnippetRunner.Proofs.Text.Margins

/-!
The indentation around a selection. At the level of a block the code is that of the selected
lines without the margin they share, line for line, and so it stays the same when each of them
that holds more than a margin is indented further.
-/
namespace SnippetRunner.Selection

open Source

section Ranges

variable {p : Path} {d : Descriptor} {content w : String} {first last : Int}

/-- Reading a file leaves line feeds in the place of carriage returns. -/
theorem return_not_mem_readText {s : Site} (hread : s.readText p = .ok content) :
    '\r' ∉ content.toList := by
  obtain ⟨octets, -, rfl⟩ := Success.map_eq_ok.mp hread
  rw [Text.normalizeNewlines, String.toList_ofList]
  exact Text.return_not_mem_normalizeChars _

/-- Just the lines of the range have a further margin. -/
theorem rangeLines_indentRange (hw : Text.IsMargin w) (hreturn : '\r' ∉ content.toList)
    (hstarts : 1 ≤ first) (hordered : first ≤ last) :
    (SourceFile.ofText p d (Text.indentRange w first last content)).rangeLines first last =
      ((SourceFile.ofText p d content).rangeLines first last).map fun line =>
        String.ofList (Text.indentChars w.toList line.toList) := by
  simp only [SourceFile.rangeLines, SourceFile.ofText, slice_of_range _ hstarts hordered,
    Text.splitLines_indentRange hw hreturn]
  apply List.ext_getElem?
  intro j
  simp only [List.getElem?_drop, List.getElem?_take, List.getElem?_map, List.getElem?_mapIdx]
  split
  · rename_i hinside
    have hnumber : first ≤ ((1 + (first.toNat - 1 + j) : Nat) : Int) ∧
        ((1 + (first.toNat - 1 + j) : Nat) : Int) ≤ last := by omega
    simp only [Text.indentNumbered, if_pos hnumber]
  · rfl

theorem rangeLines_clamped (source : SourceFile) (hstarts : 1 ≤ first) (hordered : first ≤ last)
    (hinside : first ≤ (source.length : Int)) :
    source.rangeLines first (min last source.length) = source.rangeLines first last := by
  rw [SourceFile.rangeLines, SourceFile.rangeLines, slice_of_range _ hstarts hordered,
    slice_of_range _ hstarts (le_min hordered hinside), SourceFile.length, take_clamped]

end Ranges

section Blocks

variable {s : Site} {request : RunRequest} {d : Descriptor} {level : Level} {source : SourceFile}

/-- At the level of a block nothing is searched, so an accepted request is resolved. -/
theorem resolve_bloc (limits : Limits) (h : Accepted s request d source)
    (hbloc : level.lower d.level = .bloc) :
    ∃ r, resolve s limits request d level = .ok r ∧
      r.snippet.code = source.rangeText request.first request.last := by
  have hsurvey : survey s limits source .bloc = .ok ⟨none, [], []⟩ := by
    simp [survey, surveyProject, Level.atLeast, Level.rank, pure, Except.pure, bind, Except.bind]
  have hresolve := resolve_of_accepted s limits h (by rw [hbloc]; decide)
  rw [hbloc, blockSnippet_eq_contextAt, hsurvey] at hresolve
  refine ⟨_, hresolve, ?_⟩
  rw [code_of_accepted h hresolve, hbloc, SourceFile.rangeText, SourceFile.rangeText,
    rangeLines_clamped source h.starts h.ordered h.inside]
  rfl

/-- The code of a block is that of its lines without the margin they share, line for line. -/
theorem resolve_dedented (limits : Limits) (h : Accepted s request d source)
    (hbloc : level.lower d.level = .bloc) :
    ∃ r margin plain, resolve s limits request d level = .ok r ∧
      Text.Dedented (source.rangeLines request.first request.last) margin plain ∧
      r.snippet.code = Text.joinLines plain ∧ Text.splitAt '\n' r.snippet.code = plain := by
  obtain ⟨r, hr, hcode⟩ := resolve_bloc limits h hbloc
  have hdedented := Text.dedentLines_dedented (source.rangeLines request.first request.last)
  refine ⟨r, _, _, hr, hdedented, hcode, ?_⟩
  rw [hcode, SourceFile.rangeText]
  obtain ⟨hstarts, hordered, ⟨p, -, hread⟩, hinside⟩ := h
  apply hdedented.splitAt_joinLines
  · rw [SourceFile.rangeLines, slice_of_range _ hstarts hordered, ← List.length_pos_iff]
    simp only [SourceFile.length] at hinside
    simp only [List.length_drop, List.length_take]
    omega
  · intro line hline
    have hmem : line ∈ source.lines := List.mem_of_mem_take (List.mem_of_mem_drop hline)
    exact (readSource_unbroken hread line hmem).no_feed

/-- A request outside of its file is refused in view of the path and the number of lines. -/
theorem resolve_refused (limits : Limits) {count : Nat} {p : Path}
    (hp : request.sourcePath s.env = .ok p) (hread : readSource s p d = .ok source)
    (hcount : source.length = count) (houtside : ¬ Accepted s request d source) :
    resolve s limits request d level = .error (.invalidRequest
      (if request.first < 1 ∨ request.last < request.first then
        .badRange request.first request.last
      else .pastEnd request.first p count)) := by
  obtain ⟨-, rfl⟩ := readSource_ok hread
  by_cases hrange : request.first < 1 ∨ request.last < request.first
  · simp [resolve, hrange, bind, Except.bind, throw, throwThe, MonadExceptOf.throw]
  · push Not at hrange
    have hpast : (source.length : Int) < request.first := by
      by_contra hinside
      exact houtside ⟨hrange.1, hrange.2, ⟨_, hp, hread⟩, by omega⟩
    rw [resolve_past_end ⟨hrange.1, hrange.2, hp⟩ hread hpast, if_neg (by omega), hcount]

end Blocks

/-- At the level of a block the code of a request is that of its lines without the margin they
share, line for line. It is the same, or the request refused alike, when a further margin stands
at each of the lines that hold more than one. -/
theorem resolve_indented {s s' : Site} {limits : Limits} {request : RunRequest} {d : Descriptor}
    {level : Level} {p : Path} {content w : String} (hp : request.sourcePath s.env = .ok p)
    (hp' : request.sourcePath s'.env = .ok p) (hread : s.readText p = .ok content)
    (hread' : s'.readText p = .ok (Text.indentRange w request.first request.last content))
    (hw : Text.IsMargin w) (hbloc : level.lower d.level = .bloc) :
    (resolve s' limits request d level).map (·.snippet.code) =
        (resolve s limits request d level).map (·.snippet.code) ∧
      ∀ source, Accepted s request d source → ∃ r margin plain,
        resolve s limits request d level = .ok r ∧
        Text.Dedented (source.rangeLines request.first request.last) margin plain ∧
        r.snippet.code = Text.joinLines plain ∧ Text.splitAt '\n' r.snippet.code = plain := by
  have hreturn := return_not_mem_readText hread
  have hsource : readSource s p d = .ok (.ofText p d content) :=
    readSource_eq_ok.mpr ⟨_, hread, rfl⟩
  have hsource' : readSource s' p d = .ok
      (.ofText p d (Text.indentRange w request.first request.last content)) :=
    readSource_eq_ok.mpr ⟨_, hread', rfl⟩
  have hlength : (SourceFile.ofText p d
      (Text.indentRange w request.first request.last content)).length =
      (SourceFile.ofText p d content).length := by
    simp [SourceFile.length, SourceFile.ofText, Text.splitLines_indentRange hw hreturn]
  constructor
  · by_cases h : Accepted s request d (.ofText p d content)
    · have h' : Accepted s' request d
          (.ofText p d (Text.indentRange w request.first request.last content)) :=
        ⟨h.starts, h.ordered, ⟨p, hp', hsource'⟩, hlength ▸ h.inside⟩
      obtain ⟨r, hr, hcode⟩ := resolve_bloc limits h hbloc
      obtain ⟨r', hr', hcode'⟩ := resolve_bloc limits h' hbloc
      have hsame : r'.snippet.code = r.snippet.code := by
        rw [hcode, hcode', SourceFile.rangeText, SourceFile.rangeText,
          rangeLines_indentRange hw hreturn h.starts h.ordered, Text.dedentLines_indented hw]
      simp [hr, hr', hsame, Except.map]
    · have h' : ¬ Accepted s' request d
          (.ofText p d (Text.indentRange w request.first request.last content)) := by
        intro h'
        exact h ⟨h'.starts, h'.ordered, ⟨p, hp, hsource⟩, hlength ▸ h'.inside⟩
      rw [resolve_refused limits hp' hsource' hlength h', resolve_refused limits hp hsource rfl h]
  · exact fun source h => resolve_dedented limits h hbloc

section Loop

private def blocksOnly : Descriptor where
  name := "b"
  level := .bloc
  extension := ".b"
  commands := []

/-- A file with a body of three lines, the second of which is blank. -/
private def loopBody (text : String) : Site :=
  ⟨⟨[(["A.b"], .file (Text.encodeUtf8 text) false)]⟩, [], [], {}⟩

private def bodyOfLoop : RunRequest where
  file := ⟨.root, ["A.b"]⟩
  first := 2
  last := 4
  scriptDir := ⟨.root, []⟩

/-- The body is indented by a tab and a blank, and then by two blanks more. -/
theorem resolve_indented_loop :
    Text.indentRange "  " 2 4 "do\n\t a\n \n\t  b\n" = "do\n  \t a\n \n  \t  b\n" ∧
    (resolve (loopBody "do\n  \t a\n \n  \t  b\n") {} bodyOfLoop blocksOnly .bloc).map
      (·.snippet.code) = .ok "a\n\n b" ∧
    ∃ r margin plain,
      resolve (loopBody "do\n\t a\n \n\t  b\n") {} bodyOfLoop blocksOnly .bloc = .ok r ∧
      Text.Dedented ["\t a", " ", "\t  b"] margin plain ∧
      r.snippet.code = Text.joinLines plain ∧ Text.splitAt '\n' r.snippet.code = plain := by
  have hread : (loopBody "do\n\t a\n \n\t  b\n").readText ⟨.root, ["A.b"]⟩ =
      .ok "do\n\t a\n \n\t  b\n" := by cbv
  have hedit : Text.indentRange "  " 2 4 "do\n\t a\n \n\t  b\n" =
      "do\n  \t a\n \n  \t  b\n" := by cbv
  have hread' : (loopBody "do\n  \t a\n \n  \t  b\n").readText ⟨.root, ["A.b"]⟩ =
      .ok (Text.indentRange "  " 2 4 "do\n\t a\n \n\t  b\n") := by
    rw [hedit]
    cbv
  have hsource : readSource (loopBody "do\n\t a\n \n\t  b\n") ⟨.root, ["A.b"]⟩ blocksOnly =
      .ok ⟨⟨.root, ["A.b"]⟩, blocksOnly, ["do", "\t a", " ", "\t  b"]⟩ := by cbv
  obtain ⟨hsame, hcode⟩ := @resolve_indented _ _ {} bodyOfLoop blocksOnly .bloc _ _ _ (by cbv)
    (by cbv) hread hread' (by decide) rfl
  refine ⟨hedit, hsame.trans (by cbv), ?_⟩
  exact hcode _ ⟨by decide, by decide, ⟨_, by cbv, hsource⟩, by decide⟩

end Loop

end SnippetRunner.Selection
