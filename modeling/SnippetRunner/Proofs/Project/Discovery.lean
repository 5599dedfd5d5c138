import SnippetRunner.Project.Listing
import SnippetRunner.Proofs.Project.Obstacles

/-!
The order in which the files of a project are discovered. All entries down to a depth stand
in one list, level by level, and a scan is one pass over that list: it takes the sources it
comes to until there is no room for more, and fails at the first entry that it cannot tell
from a source.
-/
namespace SnippetRunner.Project

variable {s : Site} {search : Search}

/-- What a directory holds, by name; nothing if it cannot be read. -/
def entriesOf (s : Site) (directory : Path) : List Path :=
  match s.listNames directory with
  | .ok names => (names.mergeSort Path.textLe).map directory.entry
  | .error _ => []

def descends (s : Site) (entry : Path) : Bool :=
  !isHidden entry.name && (s.isDirectory entry).toOption == some true &&
    !skippedDirectories.contains entry.name

def isSource (s : Site) (search : Search) (entry : Path) : Bool :=
  !isHidden entry.name && (s.isDirectory entry).toOption == some false &&
    entry.suffix == search.extension &&
    (s.resolve entry).toOption.any fun real => some real != search.excluded

def discovery (s : Site) : Nat → List Path → List Path
  | 0, _ => []
  | levels + 1, directories =>
    let entries := directories.flatMap (entriesOf s)
    entries ++ discovery s levels (entries.filter (descends s))

/-- A scan fails at an entry: it cannot be looked at to see whether it is a directory, or it may
be one of the files looked for and has no real path. -/
def Blocks (s : Site) (search : Search) (entry : Path) (f : Failure) : Prop :=
  isHidden entry.name = false ∧
    (Unseen s entry f ∨
      s.isDirectory entry = .ok false ∧ entry.suffix = search.extension ∧ Unreal s entry f)

/-- A scan with so much room comes to an entry at which it fails. -/
def Blocked (s : Site) (search : Search) (room : Nat) (entries : List Path) (f : Failure) :
    Prop :=
  ∃ before entry after, entries = before ++ entry :: after ∧
    (∀ e ∈ before, ∀ g, ¬ Blocks s search e g) ∧
    before.countP (isSource s search) < room ∧ Blocks s search entry f

section Entry

variable {entry : Path} {f : Failure}

theorem scanEntry_eq_error : scanEntry s search entry = .error f ↔ Blocks s search entry f := by
  rw [Blocks, ← isDirectory_eq_error, ← resolve_eq_error]
  unfold scanEntry
  cases hhidden : isHidden entry.name with
  | true => simp [pure, Except.pure]
  | false =>
    cases hdirectory : s.isDirectory entry with
    | error g => simp [bind, Except.bind]
    | ok isDirectory =>
      cases isDirectory with
      | true =>
        by_cases hskipped : entry.name ∈ skippedDirectories
        · simp [hskipped, bind, Except.bind, pure, Except.pure]
        · simp [hskipped, bind, Except.bind, pure, Except.pure]
      | false =>
        by_cases hsuffix : entry.suffix = search.extension
        · cases hreal : s.resolve entry with
          | error g => simp [hsuffix, bind, Except.bind]
          | ok real =>
            by_cases hexcluded : some real = search.excluded
            · simp [hsuffix, hexcluded, bind, Except.bind, pure, Except.pure]
            · simp [hsuffix, hexcluded, bind, Except.bind, pure, Except.pure]
        · simp [hsuffix, bind, Except.bind, pure, Except.pure]

/-- An entry is kept if it is a source, and gone down into if it is a directory for that. -/
theorem scanEntry_ok {found : Harvest} (h : scanEntry s search entry = .ok found) :
    found.files = [entry].filter (isSource s search) ∧
      found.directories = [entry].filter (descends s) := by
  unfold scanEntry at h
  split at h
  · rename_i hhidden
    cases h
    simp [isSource, descends, hhidden, Harvest.none]
  · rename_i hhidden
    obtain ⟨isDirectory, hdirectory, h⟩ := Success.bind_eq_ok.mp h
    cases isDirectory with
    | true =>
      simp only [if_true] at h
      split at h
      · rename_i hskipped
        cases h
        simp_all [isSource, descends, Harvest.none, Except.toOption]
      · rename_i hkept
        cases h
        simp_all [isSource, descends, Except.toOption]
    | false =>
      simp only [Bool.false_eq_true, if_false] at h
      split at h
      · rename_i hsuffix
        obtain ⟨real, hreal, h⟩ := Success.bind_eq_ok.mp h
        split at h
        · rename_i hexcluded
          cases h
          have hsame : search.excluded = some real := (beq_iff_eq.mp hexcluded).symm
          have hleft : isSource s search entry = false := by
            simp [isSource, hreal, hsame, Except.toOption]
          simp [hleft, descends, hdirectory, Harvest.none, Except.toOption]
        · rename_i hkept
          cases h
          simp_all [isSource, descends, Except.toOption]
      · rename_i hsuffix
        cases h
        simp_all [isSource, descends, Harvest.none, Except.toOption]

/-- A directory that is gone down into has a path without a NUL. -/
theorem hasNul_of_descends (h : descends s entry = true) : entry.hasNul = false := by
  simp only [descends, Bool.and_eq_true, beq_iff_eq] at h
  cases hdirectory : s.isDirectory entry with
  | error g => simp [hdirectory, Except.toOption] at h
  | ok isDirectory =>
    obtain rfl : isDirectory = true := by simpa [hdirectory, Except.toOption] using h.1.2
    obtain ⟨loc, hstat⟩ := isDirectory_eq_true.mp hdirectory
    exact FileTree.hasNul_of_statWithin hstat

end Entry

section Entries

variable {room : Nat} {entries : List Path} {f : Failure}

/-- A scan that does not fail takes the first sources that there is room for. If it has not
used up the room it has seen every entry. -/
theorem scanEntries_ok {found : Harvest} (h : scanEntries s search room entries = .ok found) :
    found.files = (entries.filter (isSource s search)).take room ∧
      (found.files.length < room → found.directories = entries.filter (descends s)) := by
  fun_induction scanEntries s search room entries generalizing found with
  | case1 =>
    cases h
    simp [Harvest.none]
  | case2 =>
    cases h
    simp [Harvest.none]
  | case3 room entry rest ih =>
    obtain ⟨here, hhere, h⟩ := Success.bind_eq_ok.mp h
    obtain ⟨more, hmore, h⟩ := Success.bind_eq_ok.mp h
    cases h
    obtain ⟨hfiles, hdirectories⟩ := scanEntry_ok hhere
    obtain ⟨hmorefiles, hmoredirectories⟩ := ih here hmore
    have hlength : here.files.length ≤ 1 := by
      rw [hfiles]
      exact List.length_filter_le ..
    have hcons : ∀ p : Path → Bool, (entry :: rest).filter p = [entry].filter p ++ rest.filter p :=
      fun p => List.filter_append (p := p) [entry] rest
    constructor
    · rw [hcons, List.take_append, ← hfiles, List.take_of_length_le (by omega), ← hmorefiles]
      rfl
    · intro hroom
      rw [Harvest.append, List.length_append] at hroom
      rw [hcons, ← hdirectories, ← hmoredirectories (by omega)]
      rfl

theorem Harvest.none_append (h : Harvest) : Harvest.none.append h = h := by
  simp [append, none]

theorem scanEntries_append (room : Nat) (a b : List Path) :
    scanEntries s search room (a ++ b) = do
      let here ← scanEntries s search room a
      let more ← scanEntries s search (room - here.files.length) b
      return here.append more := by
  fun_induction scanEntries s search room a with
  | case1 a =>
    simp [scanEntries, Harvest.none_append, bind, Except.bind, pure, Except.pure]
  | case2 room hroom =>
    rw [List.nil_append]
    change _ = scanEntries s search room b >>= fun more => pure (Harvest.none.append more)
    simp [Harvest.none_append]
  | case3 room entry rest ih =>
    rw [List.cons_append, scanEntries]
    cases scanEntry s search entry with
    | error g => rfl
    | ok here =>
      simp only [bind, Except.bind, ih here]
      cases scanEntries s search (room + 1 - here.files.length) rest with
      | error g => rfl
      | ok more =>
        simp only [pure, Except.pure, Harvest.append, List.length_append, Nat.sub_sub]
        cases scanEntries s search (room + 1 - (here.files.length + more.files.length)) b with
        | error g => rfl
        | ok last => simp

theorem scanEntries_eq_error :
    scanEntries s search room entries = .error f ↔ Blocked s search room entries f := by
  fun_induction scanEntries s search room entries with
  | case1 => simp [Blocked]
  | case2 => simp [Blocked]
  | case3 room entry rest ih =>
    cases hscan : scanEntry s search entry with
    | error g =>
      have hblocks : Blocks s search entry g := scanEntry_eq_error.mp hscan
      constructor
      · rintro ⟨⟩
        exact ⟨[], entry, rest, rfl, by simp, by simp, hblocks⟩
      · rintro ⟨before, stop, after, heq, hpassed, -, hstop⟩
        cases before with
        | nil =>
          obtain ⟨rfl, rfl⟩ := List.cons.inj heq
          exact hscan.symm.trans (scanEntry_eq_error.mpr hstop)
        | cons passed before =>
          obtain ⟨rfl, rfl⟩ := List.cons.inj heq
          exact absurd hblocks (hpassed _ (List.mem_cons_self ..) g)
    | ok here =>
      have hpasses : ∀ g, ¬ Blocks s search entry g := by
        intro g hblocks
        cases hscan.symm.trans (scanEntry_eq_error.mpr hblocks)
      have hcount : ∀ before, (entry :: before).countP (isSource s search) =
          here.files.length + before.countP (isSource s search) := by
        intro before
        rw [(scanEntry_ok hscan).1, ← List.countP_eq_length_filter, ← List.countP_append,
          List.singleton_append]
      change (scanEntries s search (room + 1 - here.files.length) rest >>= fun more =>
        pure (here.append more)) = .error f ↔ _
      rw [Success.bind_eq_error, ih here]
      constructor
      · rintro (⟨before, stop, after, rfl, hpassed, hroom, hstop⟩ | ⟨more, -, h⟩)
        · refine ⟨entry :: before, stop, after, rfl, ?_, by rw [hcount]; omega, hstop⟩
          intro e he
          rcases List.mem_cons.mp he with rfl | he
          · exact hpasses
          · exact hpassed e he
        · cases h
      · rintro ⟨before, stop, after, heq, hpassed, hroom, hstop⟩
        cases before with
        | nil =>
          obtain ⟨rfl, rfl⟩ := List.cons.inj heq
          exact absurd hstop (hpasses f)
        | cons passed before =>
          obtain ⟨rfl, rfl⟩ := List.cons.inj heq
          rw [hcount] at hroom
          exact Or.inl ⟨before, stop, after, rfl,
            fun e he => hpassed e (List.mem_cons_of_mem _ he), by omega, hstop⟩

end Entries

section Levels

variable {room levels : Nat} {directories : List Path}

/-- A directory whose path can be passed to the file tree is scanned, be it as an empty one. -/
theorem sortedEntries_eq {directory : Path} (hnul : directory.hasNul = false) :
    sortedEntries s directory = .ok (entriesOf s directory) := by
  unfold sortedEntries entriesOf
  cases hnames : s.listNames directory with
  | ok names => rfl
  | error e =>
    have hsystem : e.isSystem = true := by
      unfold Site.listNames at hnames
      split at hnames
      · split at hnames
        · cases hnames
          rfl
        · cases hnames
      · cases hnames
        rfl
      · rename_i hstat
        cases hnames
        simpa [FileError.isSystem] using FileTree.statWithin_error hnul hstat
    simp [hsystem]

/-- Scanning the directories of a level is scanning their entries one after the other. -/
theorem scanLevel_eq (hnul : ∀ d ∈ directories, d.hasNul = false) :
    scanLevel s search room directories =
      scanEntries s search room (directories.flatMap (entriesOf s)) := by
  fun_induction scanLevel s search room directories with
  | case1 => simp [scanEntries]
  | case2 => simp [scanEntries]
  | case3 room directory rest ih =>
    rw [sortedEntries_eq (hnul directory (List.mem_cons_self ..)), List.flatMap_cons,
      scanEntries_append]
    simp only [ih _ fun d hd => hnul d (List.mem_cons_of_mem _ hd)]
    rfl

theorem scanLevels_nil (levels room : Nat) : scanLevels s search levels room [] = .ok [] := by
  cases levels with
  | zero => cases room <;> rfl
  | succ levels => cases room <;> rfl

/-- Scanning level by level is one pass over the entries in the order of discovery. -/
theorem scanLevels_eq (hnul : ∀ d ∈ directories, d.hasNul = false) :
    scanLevels s search levels room directories =
      (scanEntries s search room (discovery s levels directories)).map (·.files) := by
  fun_induction scanLevels s search levels room directories with
  | case1 room directories => cases room <;> rfl
  | case2 levels directories => simp [scanEntries, Harvest.none, Except.map]
  | case3 levels room directories ih =>
    rw [scanLevel_eq hnul, discovery, scanEntries_append]
    cases hlevel : scanEntries s search (room + 1) (directories.flatMap (entriesOf s)) with
    | error f => rfl
    | ok here =>
      obtain ⟨-, hdirectories⟩ := scanEntries_ok hlevel
      have hnul' : ∀ d ∈ (directories.flatMap (entriesOf s)).filter (descends s),
          d.hasNul = false := fun d hd => hasNul_of_descends (List.mem_filter.mp hd).2
      generalize (directories.flatMap (entriesOf s)).filter (descends s) = below
        at hdirectories hnul' ⊢
      -- Without room left the entries below do not matter, and with room left all are known.
      have hmore : scanLevels s search levels (room + 1 - here.files.length) here.directories =
          (scanEntries s search (room + 1 - here.files.length) (discovery s levels below)).map
            (·.files) := by
        by_cases hroom : here.files.length < room + 1
        · rw [← hdirectories hroom]
          exact ih here (hdirectories hroom ▸ hnul')
        · rw [show room + 1 - here.files.length = 0 by omega]
          cases levels <;> simp [scanLevels, scanEntries, Harvest.none, Except.map]
      simp only [bind, Except.bind, pure, Except.pure]
      by_cases hempty : here.directories = []
      · rw [hempty, scanLevels_nil] at hmore
        obtain ⟨more, hscan, hnone⟩ := Success.map_eq_ok.mp hmore.symm
        simp [hempty, hscan, hnone, Except.map, Harvest.append]
      · rw [hmore]
        cases scanEntries s search (room + 1 - here.files.length) (discovery s levels below) with
        | error f => simp [hempty, Except.map]
        | ok more => simp [hempty, Except.map, Harvest.append]

end Levels

section Root

variable {levels room : Nat} {root : Path} {f : Failure}

/-- A scan of so many levels from a root is stopped: it cannot list the root, or comes to an entry
at which it fails. -/
def Stopped (s : Site) (search : Search) (root : Path) (levels room : Nat) (f : Failure) : Prop :=
  root.hasNul = true ∧ 0 < room ∧ f = .ofFile root .nullByte ∨
    root.hasNul = false ∧ Blocked s search room (discovery s levels [root]) f

theorem scanLevels_eq_error :
    scanLevels s search (levels + 1) room [root] = .error f ↔
      Stopped s search root (levels + 1) room f := by
  unfold Stopped
  cases hnul : root.hasNul with
  | false =>
    rw [scanLevels_eq (by simpa using hnul), Success.map_eq_error, scanEntries_eq_error]
    simp
  | true =>
    have hsorted : sortedEntries s root = .error (.ofFile root .nullByte) := by
      simp [sortedEntries, Site.listNames, Site.stat, FileTree.statWithin, hnul,
        FileError.isSystem]
    cases room with
    | zero => simp [scanLevels]
    | succ room => simp [scanLevels, scanLevel, hsorted, bind, Except.bind, eq_comm]

end Root

section SourceFiles

variable {root own real : Path} {extension : String} {maxDepth maxFiles : Int} {f : Failure}

def entriesBelow (s : Site) (root : Path) (maxDepth : Int) : List Path :=
  discovery s (maxDepth.toNat + 1) [root]

theorem sourceFiles_eq_scanLevels (hown : s.resolve own = .ok real) :
    sourceFiles s root extension maxDepth maxFiles (some own) =
      scanLevels s ⟨extension, some real⟩ (maxDepth.toNat + 1) maxFiles.toNat [root] := by
  simp only [sourceFiles, hown]
  rfl

theorem sourceFiles_of_unreal (hown : Unreal s own f) :
    sourceFiles s root extension maxDepth maxFiles (some own) = .error f := by
  simp only [sourceFiles, resolve_eq_error.mpr hown]
  rfl

/-- Something stops the search for the files of a project: a root that cannot be listed, or an
entry that is met before there are files enough. -/
def ScanBlocked (s : Site) (root real : Path) (extension : String) (maxDepth maxFiles : Int)
    (f : Failure) : Prop :=
  root.hasNul = true ∧ 0 < maxFiles ∧ f = .ofFile root .nullByte ∨
    root.hasNul = false ∧
      Blocked s ⟨extension, some real⟩ maxFiles.toNat (entriesBelow s root maxDepth) f

theorem sourceFiles_eq_error (hown : s.resolve own = .ok real) :
    sourceFiles s root extension maxDepth maxFiles (some own) = .error f ↔
      ScanBlocked s root real extension maxDepth maxFiles f := by
  rw [sourceFiles_eq_scanLevels hown, scanLevels_eq_error, Stopped, ScanBlocked, entriesBelow,
    Int.lt_toNat]
  rfl

theorem ScanBlocked.fault (h : ScanBlocked s root real extension maxDepth maxFiles f) :
    Fault s f := by
  obtain ⟨-, -, rfl⟩ | ⟨-, before, entry, after, -, -, -, -, hblocks⟩ := h
  · exact .nul _
  · obtain hunseen | ⟨-, -, hunreal⟩ := hblocks
    · exact .unseen entry f hunseen
    · exact Unreal.fault hunreal

end SourceFiles

end SnippetRunner.Project
