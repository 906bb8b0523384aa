import Mathlib.Data.List.Forall2
import WorkflowLint.Command.Lint
import WorkflowLint.Proofs.Collection
import WorkflowLint.Proofs.ManifestReading
import WorkflowLint.Proofs.Reports

/-!
# Runs of the `lint` command

A run of the `lint` command gets as far as its settings, its files and their texts allow. Nothing on
the way depends on the form of the report. If the run fails then it fails alike in all three forms,
and nothing has been printed. If it does not, then there is a result for every file that was found,
the three reports on them agree, and the exit code says whether they list anything.

## Main definitions

* `WorkflowLint.Command.findings` — the results of a run, whatever the form of the report.
* `WorkflowLint.Command.Sound` — nothing is in the way of a run that it does not expect.
* `WorkflowLint.Command.Fails` — why a run fails.

## Main results

* `WorkflowLint.Command.runLint_formats_agree` — the forms make no difference to a run.
* `WorkflowLint.Command.runLint_fails_otherwise` — what else can be in the way of a run.
-/

set_option autoImplicit false

namespace WorkflowLint

/-! ## Files that are collected -/

namespace FileSet

/-- A file that can be read can be linted. -/
lemma lintFile_of_read {t : FileTree} {q : Path} {bytes : List UInt8} (h : t.read q = .ok bytes) :
    ∃ r, lintFile t q = .ok r :=
  ⟨_, by rw [lintFile, readScript, h]; rfl⟩

/-- The result for a file tells its path and what is found in its text. -/
lemma exists_text_of_lintFile {t : FileTree} {q : Path} {r : LintResult}
    (h : lintFile t q = .ok r) :
    ∃ text, readScript t q = .ok text ∧ r = ⟨q.text, lint text⟩ := by
  rw [lintFile] at h
  cases htext : readScript t q with
  | error p => simp [htext, bind, Except.bind] at h
  | ok text =>
    rw [htext] at h
    exact ⟨text, rfl, (Except.ok.inj h).symm⟩

/-- A file that cannot be read cannot be linted. -/
lemma lintFile_of_error {t : FileTree} {q : Path} {e : FileError} (h : t.read q = .error e) :
    lintFile t q = .error ⟨.files, "failed to read file: " ++ e.message, some ⟨q, none⟩⟩ := by
  rw [lintFile, readScript, h]
  rfl

/-- Files that can be linted one by one can be linted together. -/
lemma exists_lintFiles {t : FileTree} {files : List Path}
    (h : ∀ q ∈ files, ∃ r, lintFile t q = .ok r) :
    ∃ rs, lintFiles t files = .ok rs ∧ List.Forall₂ (fun q r => lintFile t q = .ok r) files rs := by
  induction files with
  | nil => exact ⟨[], rfl, .nil⟩
  | cons q files ih =>
    obtain ⟨r, hr⟩ := h q (by simp)
    obtain ⟨rs, hrs, hall⟩ := ih fun q hq => h q (List.mem_cons_of_mem _ hq)
    refine ⟨r :: rs, ?_, .cons hr hall⟩
    rw [lintFiles] at hrs ⊢
    rw [List.mapM_cons, hr, hrs]
    rfl

/-- The first file that cannot be linted is reported. -/
lemma lintFiles_of_error {t : FileTree} {before after : List Path} {q : Path} {p : Problem}
    (h : ∀ q ∈ before, ∃ r, lintFile t q = .ok r) (hq : lintFile t q = .error p) :
    lintFiles t (before ++ q :: after) = .error p := by
  obtain ⟨rs, hrs, -⟩ := exists_lintFiles h
  rw [lintFiles] at hrs ⊢
  rw [List.mapM_append, hrs, List.mapM_cons, hq]
  rfl

end FileSet

/-! ## Runs -/

namespace Command

/-- The options with the form of the report chosen. -/
def LintOptions.withFormat (o : LintOptions) (format : OutputFormat) : LintOptions :=
  { o with format := some format.name }

lemma manifestSettings_withFormat (t : FileTree) (o : LintOptions) (format : OutputFormat) :
    manifestSettings t (o.withFormat format) = manifestSettings t o := rfl

/-- The results of a run, whatever the form of the report. -/
def findings (t : FileTree) (o : LintOptions) : Except Failure (List LintResult) := do
  let (s, _) ← manifestSettings t o
  let s ← override s (o.withFormat .human)
  let files ← FileSet.collect t s.root s.globs
  (FileSet.lintFiles t files).mapError .problem

lemma ofName?_name (format : OutputFormat) : OutputFormat.ofName? format.name = some format := by
  cases format <;> decide

/-- The form that is chosen is the form of the report, and nothing else depends on it. -/
lemma override_withFormat (s : Settings) (o : LintOptions) (format : OutputFormat) :
    override s (o.withFormat format) =
      (override s (o.withFormat .human)).map fun s => { s with format := format } := by
  simp only [override, LintOptions.withFormat, ofName?_name]
  rfl

lemma exists_override (s : Settings) (o : LintOptions) (format : OutputFormat) :
    ∃ s', override s (o.withFormat format) = .ok s' := by
  simp only [override, LintOptions.withFormat, ofName?_name]
  exact ⟨_, rfl⟩

lemma results_withFormat (t : FileTree) (o : LintOptions) (format : OutputFormat) :
    results t (o.withFormat format) = (findings t o).map fun rs => (format, rs) := by
  rw [results, findings, manifestSettings_withFormat]
  cases manifestSettings t o with
  | error e => rfl
  | ok found =>
    obtain ⟨s, hs⟩ := exists_override found.1 o .human
    simp only [bind, Except.bind, override_withFormat _ _ format, hs, Except.map]
    cases FileSet.collect t s.root s.globs with
    | error e => rfl
    | ok files => cases FileSet.lintFiles t files <;> rfl

lemma runLog_withFormat (t : FileTree) (o : LintOptions) (format : OutputFormat) :
    runLog t (o.withFormat format) = runLog t (o.withFormat .human) := by
  rw [runLog, runLog, manifestSettings_withFormat, manifestSettings_withFormat]
  cases manifestSettings t o with
  | error e => rfl
  | ok found =>
    obtain ⟨s, hs⟩ := exists_override found.1 o .human
    simp only [override_withFormat _ _ format, hs, Except.map]
    rfl

/-- The log of a run, whatever the form of the report. -/
def logText (t : FileTree) (o : LintOptions) : String :=
  if o.verbose then String.join (runLog t (o.withFormat .human)) else ""

/-- A run with results ends with a report on them. -/
lemma runLint_of_ok {t : FileTree} {o : LintOptions} {rs : List LintResult}
    (h : findings t o = .ok rs) (format : OutputFormat) :
    runLint t (o.withFormat format) =
      .exit (if ∀ r ∈ rs, r.diagnostics = [] then 0 else 1) (Report.render format rs)
        (logText t o) := by
  have hresults : results t (o.withFormat format) = .ok (format, rs) := by
    rw [results_withFormat, h]
    rfl
  simp only [runLint, hresults, runLog_withFormat t o format, Report.clean_ofResults]
  rfl

/-- A run with a problem ends with the problem. -/
lemma runLint_of_problem {t : FileTree} {o : LintOptions} {p : Problem}
    (h : findings t o = .error (.problem p)) (format : OutputFormat) :
    runLint t (o.withFormat format) =
      .exit 2 "" (logText t o ++ "Error: " ++ Text.stripAnsi p.text ++ "\n") := by
  have hresults : results t (o.withFormat format) = .error (.problem p) := by
    rw [results_withFormat, h]
    rfl
  have hline : Report.line ("Error: " ++ p.text) = "Error: " ++ Text.stripAnsi p.text ++ "\n" := by
    rw [Report.line, Text.stripAnsi_append (by decide)]
  simp only [runLint, hresults, runLog_withFormat t o format, hline, String.append_assoc]
  rfl

/-- What is not expected breaks a run off. -/
lemma runLint_of_breakdown {t : FileTree} {o : LintOptions} {b : Breakdown}
    (h : findings t o = .error (.breakdown b)) (format : OutputFormat) :
    runLint t (o.withFormat format) = .broken b := by
  have hresults : results t (o.withFormat format) = .error (.breakdown b) := by
    rw [results_withFormat, h]
    rfl
  simp only [runLint, hresults]

/-- A run that has its settings goes on with the files. -/
lemma findings_of_settings? {t : FileTree} {o : LintOptions} {s : Settings}
    (hs : settings? t (o.withFormat .human) = some s) :
    findings t o = FileSet.collect t s.root s.globs >>= fun files =>
      (FileSet.lintFiles t files).mapError .problem := by
  rw [settings?, manifestSettings_withFormat] at hs
  rw [findings]
  cases hmanifest : manifestSettings t o with
  | error e => simp [hmanifest, Except.toOption] at hs
  | ok found =>
    obtain ⟨s', hs'⟩ := exists_override found.1 o .human
    obtain rfl : s' = s := by simpa [hmanifest, hs', Except.toOption] using hs
    simp only [bind, Except.bind, hs']

/-- The manifest that a run looks at: the one that is named, or else the one in the working
directory. -/
def manifestPath (t : FileTree) (o : LintOptions) : Path :=
  match o.manifest with
  | some file => .ofString file
  | none => t.workingPath.join (.ofString Manifest.fileName)

/-- The depth to which things may be nested without exhausting the stack of the interpreter. -/
def depthLimit : Nat := 250

end Command

namespace Manifest

/-- The value by which the manifest asks for a form of the report, and which is shown if it is none,
is not nested too deep. -/
def Moderate (t : FileTree) (file : Path) : Prop :=
  ∀ lint v, Holds t file lint → lint.lookup "format" = some v → v.depth ≤ Command.depthLimit

end Manifest

namespace Command

/-- A run starts in a directory, and nothing that it goes into is nested too deep. -/
structure Moderate (t : FileTree) (o : LintOptions) : Prop where
  /-- The working directory is a directory. -/
  workingDirectory : t.isDirectory ⟨.relative, []⟩ = true
  /-- A value of the manifest that may be shown. -/
  manifest : Manifest.Moderate t (manifestPath t o)
  /-- The patterns, component by component. -/
  patterns : ∀ s, settings? t o = some s → ∀ pattern ∈ s.globs,
    (Glob.Pattern.ofString (FileSet.fullPattern s.root pattern)).pieces.length ≤ depthLimit
  /-- The directories below any path, links followed. -/
  directories : ∀ (p : Path) (q : List String), FileTree.Proper q →
    t.isDirectory (p.down q) = true → q.length ≤ depthLimit

/-- Nothing is in the way of a run that it does not expect. -/
structure Sound (t : FileTree) (o : LintOptions) : Prop extends
    Moderate t (o.withFormat .human) where
  /-- The path of the manifest does not hold the character U+0000. -/
  manifest_null : ∀ file, o.manifest = some file → '\x00' ∉ file.toList
  /-- No pattern does. -/
  patterns_null : ∀ s, settings? t (o.withFormat .human) = some s →
    ∀ pattern ∈ s.globs, '\x00' ∉ pattern.toList
  /-- The manifest, if there is one, is a text. -/
  manifest_text : ¬ Manifest.IsNoText t (manifestPath t o)
  /-- What is shown of the manifest, if it is wrong, can be shown. -/
  manifest_showable : ¬ Manifest.IsUnshowable t (manifestPath t o)
  /-- It can be told whether there is a manifest in the working directory. -/
  manifest_testable : o.manifest = none → t.canTest (manifestPath t o) = true
  /-- It can be told what the root is. -/
  root_testable : ∀ s, settings? t (o.withFormat .human) = some s → t.canTest s.root = true
  /-- It can be told what the paths lead to that the patterns stand for, and where. -/
  candidates_clear : ∀ s, settings? t (o.withFormat .human) = some s →
    t.isDirectory s.root = true → ∀ p ∈ FileSet.candidates t s.root s.globs,
      t.canTest p = true ∧ (t.isFile p = true → ∃ f, t.canonical? p = some f)

/-- Why a run fails. -/
inductive Fails (t : FileTree) (o : LintOptions) : Problem → Prop
  /-- The manifest cannot be used. -/
  | manifest {p : Problem} : manifestSettings t o = .error (.problem p) → Fails t o p
  /-- No files are found. -/
  | files {s : Settings} {p : Problem} : settings? t (o.withFormat .human) = some s →
      FileSet.collect t s.root s.globs = .error (.problem p) → Fails t o p
  /-- A file is found that cannot be read. The first such file is reported. -/
  | unreadable {s : Settings} {before after : List Path} {file : Path} {e : FileError} :
      settings? t (o.withFormat .human) = some s →
      FileSet.collect t s.root s.globs = .ok (before ++ file :: after) →
      (∀ other ∈ before, ∃ bytes, t.read other = .ok bytes) → t.read file = .error e →
      Fails t o ⟨.files, "failed to read file: " ++ e.message, some ⟨file, none⟩⟩

/-! ### What is not expected -/

variable {t : FileTree} {o : LintOptions} {b : Breakdown}

/-- What can be read can be asked for. -/
lemma canTest_of_read {file : Path} {bytes : List UInt8} (h : t.read file = .ok bytes) :
    t.canTest file = true ∧ t.isFile file = true := by
  unfold FileTree.read at h
  split at h
  · rename_i place _ hresolve
    simp [FileTree.canTest, FileTree.isFile, FileTree.find?, hresolve, Except.toOption, Node.isFile]
  · cases h
  · cases h
  · cases h

/-- What cannot be asked for, or is no file, is not read, and so nothing is wrong with what it
holds. -/
lemma not_wrong_of_unread {file : Path} (h : ¬(t.canTest file = true ∧ t.isFile file = true)) :
    ¬ Manifest.IsNoText t file ∧ ¬ Manifest.IsUnshowable t file := by
  constructor
  · rintro ⟨bytes, hread, -⟩
    exact h (canTest_of_read hread)
  · rintro ⟨lint, ⟨bytes, -, -, hread, -⟩, -⟩
    exact h (canTest_of_read hread)

/-- A step that only picks what a manifest gave does not break. -/
lemma map_eq_breakdown_iff {α β : Type} {x : Except Failure α} {f : α → β} :
    (x >>= fun a => pure (f a)) = .error (.breakdown b) ↔ x = .error (.breakdown b) := by
  cases x <;> simp [bind, Except.bind, pure, Except.pure]

/-- **When the settings are missing without a reason.** The manifest may be refused by its path only
if it is named: in the working directory it is only read if it has been found. -/
lemma manifestSettings_eq_breakdown_iff : manifestSettings t o = .error (.breakdown b) ↔
    b = .untestable ∧ o.manifest = none ∧ t.canTest (manifestPath t o) = false ∨
      b = .nullCharacter ∧ (∃ file, o.manifest = some file ∧ (Path.ofString file).hasNull = true) ∨
      b = .undecodable ∧ Manifest.IsNoText t (manifestPath t o) ∨
      b = .unshowable ∧ Manifest.IsUnshowable t (manifestPath t o) := by
  unfold manifestSettings manifestPath
  cases o.manifest with
  | some file =>
    simp only [map_eq_breakdown_iff, Manifest.load_eq_breakdown_iff]
    simp
  | none =>
    simp only [Manifest.find, reduceCtorEq, false_and, exists_false, and_false, false_or, true_and]
    generalize t.workingPath.join (.ofString Manifest.fileName) = file
    cases htest : t.canTest file with
    | false =>
      obtain ⟨htext, hshow⟩ := @not_wrong_of_unread t file (by simp [htest])
      simp [bind, Except.bind, htext, hshow, eq_comm]
    | true =>
      cases hfile : t.isFile file with
      | false =>
        obtain ⟨htext, hshow⟩ := @not_wrong_of_unread t file (by simp [hfile])
        simp [bind, Except.bind, pure, Except.pure, htext, hshow]
      | true =>
        have hnull : file.hasNull = false := by
          by_contra htrue
          rw [Bool.not_eq_false] at htrue
          simp [FileTree.isFile, FileTree.find?, FileTree.resolve, htrue, Except.toOption] at hfile
        have hload := map_eq_breakdown_iff (b := b) (x := Manifest.load t file)
          (f := fun s => (s, some file))
        rw [Manifest.load_eq_breakdown_iff] at hload
        simpa [bind, Except.bind, hnull] using hload

namespace Sound

variable (h : Sound t o)
include h

/-- A sound run gets its settings, or there is a problem. -/
lemma manifestSettings_ne_breakdown : manifestSettings t o ≠ .error (.breakdown b) := by
  rw [ne_eq, manifestSettings_eq_breakdown_iff]
  rintro (⟨-, hnone, htest⟩ | ⟨-, file, hfile, hnull⟩ | ⟨-, htext⟩ | ⟨-, hshow⟩)
  · exact Bool.false_ne_true (htest.symm.trans (h.manifest_testable hnone))
  · exact h.manifest_null file hfile (Path.hasNull_ofString_iff.1 hnull)
  · exact h.manifest_text htext
  · exact h.manifest_showable hshow

/-- A sound run gets its files, or there is a problem. -/
lemma collect_ne_breakdown {s : Settings} (hs : settings? t (o.withFormat .human) = some s) :
    FileSet.collect t s.root s.globs ≠ .error (.breakdown b) := by
  refine FileSet.collect_ne_breakdown_iff.2 ⟨h.root_testable s hs, fun hdirectory => ?_⟩ b
  refine FileSet.unobstructed_iff.2 ⟨fun pattern hpattern => ?_, fun p hp => ?_⟩
  · exact FileSet.isUnlistable_eq_false hdirectory (h.patterns_null s hs pattern hpattern)
  · exact FileSet.pathObstacle?_eq_none_iff.2 (h.candidates_clear s hs hdirectory p hp)

end Sound

/-! ### Runs that fail -/

/-- A run that fails has no results. -/
lemma findings_of_fails {p : Problem} (hp : Fails t o p) : findings t o = .error (.problem p) := by
  cases hp with
  | manifest hmanifest =>
    rw [findings, hmanifest]
    rfl
  | files hs hcollect =>
    rw [findings_of_settings? hs, hcollect]
    rfl
  | @unreadable s before after file e hs hcollect hbefore hread =>
    have hlinted : ∀ other ∈ before, ∃ r, FileSet.lintFile t other = .ok r := fun other hother =>
      (hbefore other hother).elim fun _ => FileSet.lintFile_of_read
    have hfiles : FileSet.lintFiles t (before ++ file :: after) = _ :=
      FileSet.lintFiles_of_error hlinted (FileSet.lintFile_of_error hread)
    rw [findings_of_settings? hs, hcollect]
    simp only [bind, Except.bind, hfiles]
    rfl

/-- Among some files all can be read, or there is a first that cannot. -/
lemma forall_read_or_first (files : List Path) :
    (∀ file ∈ files, ∃ bytes, t.read file = .ok bytes) ∨
    ∃ before file after e, files = before ++ file :: after ∧
      (∀ other ∈ before, ∃ bytes, t.read other = .ok bytes) ∧ t.read file = .error e := by
  induction files with
  | nil => exact .inl (List.forall_mem_nil _)
  | cons first files ih =>
    cases hread : t.read first with
    | error e => exact .inr ⟨[], first, files, e, rfl, List.forall_mem_nil _, hread⟩
    | ok bytes =>
      obtain hall | ⟨before, file, after, e, rfl, hbefore, hfile⟩ := ih
      · exact .inl (List.forall_mem_cons.2 ⟨⟨bytes, hread⟩, hall⟩)
      · exact .inr ⟨first :: before, file, after, e, rfl,
          List.forall_mem_cons.2 ⟨⟨bytes, hread⟩, hbefore⟩, hfile⟩

/-- A run that does not fail has a result for each of its files. -/
lemma Sound.exists_findings (h : Sound t o) (hp : ∀ p, ¬ Fails t o p) :
    ∃ s files rs, settings? t (o.withFormat .human) = some s ∧
      FileSet.collect t s.root s.globs = .ok files ∧ findings t o = .ok rs ∧
      List.Forall₂ (fun file r => ∃ text, FileSet.readScript t file = .ok text ∧
        r = ⟨file.text, lint text⟩) files rs := by
  cases hmanifest : manifestSettings t o with
  | error e =>
    cases e with
    | problem p => exact absurd (.manifest hmanifest) (hp p)
    | breakdown b => exact absurd hmanifest h.manifestSettings_ne_breakdown
  | ok found =>
    obtain ⟨s, hs⟩ := exists_override found.1 o .human
    have hsettings : settings? t (o.withFormat .human) = some s := by
      rw [settings?, manifestSettings_withFormat]
      simp [hmanifest, hs, Except.toOption]
    cases hcollect : FileSet.collect t s.root s.globs with
    | error e =>
      cases e with
      | problem p => exact absurd (.files hsettings hcollect) (hp p)
      | breakdown b => exact absurd hcollect (h.collect_ne_breakdown hsettings)
    | ok files =>
      have hall : ∀ file ∈ files, ∃ bytes, t.read file = .ok bytes := by
        obtain hall | ⟨before, file, after, e, rfl, hbefore, hread⟩ := forall_read_or_first files
        · exact hall
        · exact absurd (.unreadable hsettings hcollect hbefore hread) (hp _)
      obtain ⟨rs, hrs, hall⟩ := FileSet.exists_lintFiles fun file hfile =>
        (hall file hfile).elim fun _ => FileSet.lintFile_of_read
      refine ⟨s, files, rs, hsettings, hcollect, ?_,
        hall.imp fun q r => FileSet.exists_text_of_lintFile⟩
      rw [findings_of_settings? hsettings, hcollect]
      simp only [bind, Except.bind, hrs]
      rfl

lemma workingPath_join_fileName (t : FileTree) :
    t.workingPath.join (.ofString Manifest.fileName) =
      ⟨.root, t.workingDirectory ++ [Manifest.fileName]⟩ := by
  rw [show Path.ofString Manifest.fileName = ⟨.relative, [Manifest.fileName]⟩ by decide]
  rfl

/-- The options that name one pattern and nothing else. -/
def LintOptions.pattern (name : String) : LintOptions := ⟨[name], none, none, none, false⟩

/-- The working directory has no manifest, but a file of the given name, which stands for itself as
a pattern. -/
structure HasFile (t : FileTree) (name : String) : Prop where
  workingDirectory : ∀ part ∈ t.workingDirectory, FileTree.IsName part
  isName : FileTree.IsName name
  isPlain : ∀ c ∈ name.toList, c ∉ ['/', '*', '?', '[']
  manifest_size : (Path.mk .root (t.workingDirectory ++ [Manifest.fileName])).text.utf8ByteSize <
    FileTree.pathLimit
  entries : ∃ entries bytes, t.root.descend? t.workingDirectory = some (.directory entries) ∧
    entries.lookup Manifest.fileName = none ∧ entries.lookup name = some (.file bytes)

namespace HasFile

variable {t : FileTree} {name : String} (h : HasFile t name)
include h

lemma resolve_manifest : t.resolve true (t.workingPath.join (.ofString Manifest.fileName)) =
    .error .notFound := by
  obtain ⟨entries, bytes, hentries, hmissing, -⟩ := h.entries
  rw [workingPath_join_fileName]
  exact FileTree.resolve_missing hentries h.workingDirectory (by decide) h.manifest_size
    hmissing

/-- Without a manifest, a run starts from the default settings. -/
lemma manifestSettings_of_none {o : LintOptions} (ho : o.manifest = none) :
    manifestSettings t o = .ok (.default, none) := by
  have hfind : Manifest.find t t.workingPath = .ok none := by
    simp [Manifest.find, FileTree.canTest, FileTree.isFile, FileTree.find?, h.resolve_manifest,
      Except.toOption]
  rw [manifestSettings]
  simp only [ho, hfind]
  rfl

lemma manifestSettings_eq : manifestSettings t (.pattern name) = .ok (.default, none) :=
  h.manifestSettings_of_none rfl

lemma settings?_eq : settings? t ((LintOptions.pattern name).withFormat .human) =
    some ⟨[name], ⟨.relative, []⟩, .human⟩ := by
  have hmanifest : manifestSettings t ((LintOptions.pattern name).withFormat .human) =
      .ok (.default, none) := h.manifestSettings_eq
  rw [settings?, hmanifest]
  rfl

lemma resolve_name (follow : Bool) :
    ∃ bytes, t.resolve follow ⟨.relative, [name]⟩ =
      .ok (t.workingDirectory ++ [name], .file bytes) := by
  obtain ⟨entries, bytes, hentries, -, hfile⟩ := h.entries
  exact ⟨bytes, FileTree.resolve_file hentries h.isName hfile⟩

lemma contains_name : t.contains ⟨.relative, [name]⟩ = true := by
  obtain ⟨bytes, hresolve⟩ := h.resolve_name false
  simp [FileTree.contains, hresolve, Except.toOption]

lemma resolve_root : ∃ entries, t.resolve true ⟨.relative, []⟩ =
    .ok (t.workingDirectory, .directory entries) := by
  obtain ⟨entries, bytes, hentries, -⟩ := h.entries
  exact ⟨entries, FileTree.resolve_here hentries⟩

lemma isFile_name : t.isFile ⟨.relative, [name]⟩ = true := by
  obtain ⟨bytes, hresolve⟩ := h.resolve_name true
  simp [FileTree.isFile, FileTree.find?, hresolve, Except.toOption, Node.isFile]

lemma canonical?_name :
    t.canonical? ⟨.relative, [name]⟩ = some ⟨.root, t.workingDirectory ++ [name]⟩ := by
  obtain ⟨bytes, hresolve⟩ := h.resolve_name false
  exact FileTree.canonical?_name h.isName.proper (by simp [FileTree.target?, hresolve])

/-- The file is found. -/
lemma collect_eq : FileSet.collect t ⟨.relative, []⟩ [name] =
    .ok [⟨.root, t.workingDirectory ++ [name]⟩] := by
  obtain ⟨entries, -, hentries, -⟩ := h.entries
  exact FileSet.collect_name h.isName h.isPlain h.contains_name hentries h.isFile_name
    h.canonical?_name

/-- What is found in the text of the file is all that is found. -/
lemma findings_eq {text : String}
    (htext : FileSet.readScript t ⟨.root, t.workingDirectory ++ [name]⟩ = .ok text) :
    findings t (.pattern name) =
      .ok [⟨(Path.mk .root (t.workingDirectory ++ [name])).text, lint text⟩] := by
  rw [findings_of_settings? h.settings?_eq, h.collect_eq]
  simp only [bind, Except.bind, FileSet.lintFiles, List.mapM_cons, List.mapM_nil, FileSet.lintFile,
    htext]
  rfl

/-- There is no manifest to read. -/
lemma read_manifest_ne {o : LintOptions} (ho : o.manifest = none) (bytes : List UInt8) :
    t.read (manifestPath t o) ≠ .ok bytes := by
  rw [manifestPath, ho, FileTree.read]
  simp [h.resolve_manifest]

/-- A tree without links that is not too deep is moderate. -/
lemma moderate {o : LintOptions} (ho : o.manifest = none) (hplain : t.root.Plain)
    (hshallow : ∀ parts m, t.root.descend? parts = some m → m.isDirectory = true →
      parts.length ≤ depthLimit)
    (hpatterns : ∀ s, settings? t o = some s → ∀ pattern ∈ s.globs,
      (Glob.Pattern.ofString (FileSet.fullPattern s.root pattern)).pieces.length ≤ depthLimit) :
    Moderate t o where
  workingDirectory := by
    obtain ⟨entries, hroot⟩ := h.resolve_root
    simp [FileTree.isDirectory, FileTree.find?, hroot, Except.toOption, Node.isDirectory]
  manifest := by
    rintro lint v ⟨bytes, -, -, hbytes, -⟩
    exact absurd hbytes (h.read_manifest_ne ho bytes)
  patterns := hpatterns
  directories p q hq hdirectory :=
    FileTree.length_le_of_isDirectory_down hplain hshallow hq hdirectory

lemma length_pieces (s : Settings)
    (hs : settings? t ((LintOptions.pattern name).withFormat .human) = some s) (pattern : String)
    (hpattern : pattern ∈ s.globs) :
    (Glob.Pattern.ofString (FileSet.fullPattern s.root pattern)).pieces.length ≤ depthLimit := by
  obtain rfl := Option.some.inj (h.settings?_eq.symm.trans hs)
  obtain rfl := List.mem_singleton.1 hpattern
  rw [FileSet.ofString_fullPattern_name h.isName h.isPlain]
  exact Nat.le_of_ble_eq_true rfl

/-- Nothing unexpected is in the way. -/
lemma sound (hmoderate : Moderate t ((LintOptions.pattern name).withFormat .human)) :
    Sound t (.pattern name) where
  toModerate := hmoderate
  manifest_null := nofun
  patterns_null s hs pattern hpattern := by
    obtain rfl := Option.some.inj (h.settings?_eq.symm.trans hs)
    obtain rfl := List.mem_singleton.1 hpattern
    exact h.isName.nullFree
  manifest_text := by
    rintro ⟨bytes, hbytes, -⟩
    exact h.read_manifest_ne rfl bytes hbytes
  manifest_showable := by
    rintro ⟨lint, ⟨bytes, -, -, hbytes, -⟩, -⟩
    exact h.read_manifest_ne rfl bytes hbytes
  manifest_testable _ := by
    simp [manifestPath, LintOptions.pattern, FileTree.canTest, h.resolve_manifest]
  root_testable s hs := by
    obtain ⟨entries, hroot⟩ := h.resolve_root
    obtain rfl := Option.some.inj (h.settings?_eq.symm.trans hs)
    simp [FileTree.canTest, hroot]
  candidates_clear s hs _ p hp := by
    obtain rfl := Option.some.inj (h.settings?_eq.symm.trans hs)
    rw [FileSet.candidates_name h.isName h.isPlain h.contains_name, List.mem_singleton] at hp
    subst hp
    exact ⟨FileSet.canTest_of_isFile h.isFile_name, fun _ => ⟨_, h.canonical?_name⟩⟩

/-- The run does not fail if the file can be read by its absolute path. -/
lemma not_fails {bytes : List UInt8}
    (hread : t.read ⟨.root, t.workingDirectory ++ [name]⟩ = .ok bytes) (p : Problem) :
    ¬ Fails t (.pattern name) p := by
  intro hp
  cases hp with
  | manifest hmanifest => exact nomatch h.manifestSettings_eq.symm.trans hmanifest
  | files hs hcollect =>
    obtain rfl := Option.some.inj (h.settings?_eq.symm.trans hs)
    exact nomatch h.collect_eq.symm.trans hcollect
  | @unreadable s before after file e hs hcollect hbefore hunread =>
    obtain rfl := Option.some.inj (h.settings?_eq.symm.trans hs)
    have hfiles := Except.ok.inj (h.collect_eq.symm.trans hcollect)
    have hfile : file ∈ [Path.mk .root (t.workingDirectory ++ [name])] := by
      rw [hfiles]
      simp
    obtain rfl := List.mem_singleton.1 hfile
    cases hread.symm.trans hunread

/-- The run fails if the absolute path of the file is too long. -/
lemma fails (hsize : FileTree.pathLimit ≤
    (Path.mk .root (t.workingDirectory ++ [name])).text.utf8ByteSize) :
    Fails t (.pattern name) ⟨.files, "failed to read file: File name too long",
      some ⟨⟨.root, t.workingDirectory ++ [name]⟩, none⟩⟩ := by
  have hnames : ∀ part ∈ t.workingDirectory ++ [name], FileTree.IsName part :=
    List.forall_mem_append.2 ⟨h.workingDirectory, by simpa using h.isName⟩
  have hcollect : FileSet.collect t ⟨.relative, []⟩ [name] =
      .ok ([] ++ ⟨.root, t.workingDirectory ++ [name]⟩ :: []) := h.collect_eq
  exact .unreadable h.settings?_eq hcollect (List.forall_mem_nil _)
    (FileTree.read_of_pathLimit_le hnames hsize)

/-- The run is broken off if it is given a root with a name that is too long. -/
lemma breaks {root : String} (hproper : root ∉ ["", ".", ".."]) (hslash : '/' ∉ root.toList)
    (hnull : '\x00' ∉ root.toList) (hsize : FileTree.nameLimit < root.utf8ByteSize)
    (format : OutputFormat) :
    runLint t (LintOptions.withFormat { LintOptions.pattern name with root := some root } format) =
      .broken .untestable := by
  obtain ⟨entries, bytes, hentries, -⟩ := h.entries
  have hmanifest : manifestSettings t (LintOptions.withFormat
      { LintOptions.pattern name with root := some root } .human) = .ok (.default, none) :=
    h.manifestSettings_eq
  have hresolve : t.resolve true (.ofString root) = .error .nameTooLong := by
    rw [Path.ofString_name hproper hslash]
    exact FileTree.resolve_long hentries hproper hnull hsize
  have hcollect : FileSet.collect t (.ofString root) [name] = .error (.breakdown .untestable) := by
    simp [FileSet.collect, FileTree.canTest, hresolve]
  have hsettings : settings? t (LintOptions.withFormat
      { LintOptions.pattern name with root := some root } .human) =
        some ⟨[name], .ofString root, .human⟩ := by
    rw [settings?, hmanifest]
    rfl
  refine runLint_of_breakdown ?_ format
  rw [findings_of_settings? hsettings, hcollect]
  rfl

end HasFile

/-- A directory with nothing but a file in it. -/
lemma hasFile_singleton {name : String} (hname : FileTree.IsName name)
    (hplain : ∀ c ∈ name.toList, c ∉ ['/', '*', '?', '[']) (hmanifest : Manifest.fileName ≠ name)
    (bytes : List UInt8) : HasFile ⟨.directory [(name, .file bytes)], []⟩ name where
  workingDirectory := List.forall_mem_nil _
  isName := hname
  isPlain := hplain
  manifest_size := show (Path.mk .root [Manifest.fileName]).text.utf8ByteSize < _ by decide
  entries := ⟨_, bytes, rfl, by simp [hmanifest], List.lookup_cons_self⟩

/-- There is one directory in such a tree, and it is the root. -/
lemma eq_nil_of_isDirectory {name : String} {bytes : List UInt8} {parts : List String} {m : Node}
    (hm : (Node.directory [(name, .file bytes)]).descend? parts = some m)
    (hdirectory : m.isDirectory = true) : parts = [] := by
  obtain ⟨rfl, -⟩ | ⟨parts, -, hm⟩ := Node.descend?_singleton.1 hm
  · rfl
  · obtain ⟨-, rfl⟩ := Node.descend?_file.1 hm
    cases hdirectory

/-- A run over such a tree is moderate if its patterns are. -/
lemma moderate_singleton {name : String} {bytes : List UInt8} {o : LintOptions}
    (h : HasFile ⟨.directory [(name, .file bytes)], []⟩ name) (ho : o.manifest = none)
    (hpatterns : ∀ s, settings? ⟨.directory [(name, .file bytes)], []⟩ o = some s →
      ∀ pattern ∈ s.globs,
        (Glob.Pattern.ofString (FileSet.fullPattern s.root pattern)).pieces.length ≤ depthLimit) :
    Moderate ⟨.directory [(name, .file bytes)], []⟩ o := by
  refine h.moderate ho (Node.plain_singleton h.isName (Node.plain_file _)) ?_ hpatterns
  intro parts m hm hdirectory
  rw [eq_nil_of_isDirectory hm hdirectory]
  exact Nat.zero_le _

lemma hasFile_chain {part : String} {depth : Nat} {name : String} (hpart : FileTree.IsName part)
    (hname : FileTree.IsName name)
    (hplain : ∀ c ∈ name.toList, c ∉ ['/', '*', '?', '['])
    (hsize : depth * (part.utf8ByteSize + 1) + (Manifest.fileName.utf8ByteSize + 1) <
      FileTree.pathLimit)
    (hmanifest : Manifest.fileName ≠ name) :
    HasFile (FileTree.chain part depth [(name, .file [])]) name where
  workingDirectory other hother := by
    rw [List.eq_of_mem_replicate hother]
    exact hpart
  isName := hname
  isPlain := hplain
  manifest_size := by rwa [FileTree.utf8ByteSize_chain]
  entries := ⟨[(name, .file [])], [], Node.descend?_foldr _ _, by simp [hmanifest],
    List.lookup_cons_self⟩

end Command

end WorkflowLint
