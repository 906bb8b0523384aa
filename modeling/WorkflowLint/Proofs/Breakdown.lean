import WorkflowLint.Proofs.LintCommand

/-!
# What breaks a run off

A manifest that cannot be used is a problem: the run says so and ends with 2. There are kinds of
manifests that no one has thought of, and they end the run on the spot: the bytes of the manifest
are no text, its path holds the character U+0000, or it asks for a form of the report by an integer
with very many digits. Apart from them, a run is broken off while it collects its files: by a name
that is too long for asking what it leads to, by the character U+0000 in front of a wildcard, or by
links that go in a circle.

## Main definitions

* `WorkflowLint.Command.Breaks` — what breaks a run off.

## Main results

* `WorkflowLint.Command.runLint_broken_iff` — what breaks a run off, and nothing else does.
* `WorkflowLint.Command.runLint_broken_by_manifest` — a manifest of a single byte does.
-/

set_option autoImplicit false

namespace WorkflowLint

namespace Command

variable {t : FileTree} {o : LintOptions} {b : Breakdown}

/-- What breaks a run off. -/
inductive Breaks (t : FileTree) (o : LintOptions) : Breakdown → Prop
  /-- It cannot be told whether there is a manifest in the working directory. -/
  | untestable_manifest : o.manifest = none → t.canTest (manifestPath t o) = false →
      Breaks t o .untestable
  /-- The path of the manifest holds the character U+0000. -/
  | null_manifest {file : String} : o.manifest = some file → '\x00' ∈ file.toList →
      Breaks t o .nullCharacter
  /-- The manifest is no text. -/
  | undecodable_manifest : Manifest.IsNoText t (manifestPath t o) → Breaks t o .undecodable
  /-- What should be shown of the manifest cannot be shown. -/
  | unshowable_manifest : Manifest.IsUnshowable t (manifestPath t o) → Breaks t o .unshowable
  /-- It cannot be told what the root is. -/
  | untestable_root {s : Settings} : settings? t o = some s → t.canTest s.root = false →
      Breaks t o .untestable
  /-- A pattern cannot be expanded, or something is in the way of a path that it stands for. The
  first such pattern counts. -/
  | pattern {s : Settings} {b : Breakdown} : settings? t o = some s →
      t.isDirectory s.root = true → FirstOf (FileSet.Obstructs t s.root) s.globs b → Breaks t o b

/-- The options of the command line are used, or there is a problem. -/
lemma override_ne_breakdown (s : Settings) : override s o ≠ .error (.breakdown b) := by
  unfold override
  cases o.format with
  | none => simp [pure, Except.pure]
  | some name =>
    cases hname : OutputFormat.ofName? name <;>
      simp [hname, pure, Except.pure, throw, throwThe, MonadExceptOf.throw]

lemma settings?_eq_some_iff {s : Settings} : settings? t o = some s ↔
    ∃ found, manifestSettings t o = .ok found ∧ override found.1 o = .ok s := by
  unfold settings?
  cases manifestSettings t o with
  | error e => simp [Except.toOption]
  | ok found => cases hs : override found.1 o <;> simp [hs, Except.toOption]

/-- A run has its files once it has its settings. -/
lemma results_of_settings? {s : Settings} (hs : settings? t o = some s) {e : Failure}
    (h : FileSet.collect t s.root s.globs = .error e) : results t o = .error e := by
  obtain ⟨found, hfound, hs⟩ := settings?_eq_some_iff.1 hs
  rw [results, hfound]
  simp only [bind, Except.bind, hs, h]

/-- **The results of a run are missing without a reason** exactly if something breaks the run off.

**Proof sketch.** The steps of a run in turn: the manifest, the options, the files, their texts. The
second and the last know problems only. -/
lemma results_eq_breakdown_iff : results t o = .error (.breakdown b) ↔ Breaks t o b := by
  constructor
  · intro h
    rw [results, bind_eq_error_iff] at h
    obtain hmanifest | ⟨found, hfound, h⟩ := h
    · obtain ⟨rfl, hnone, htest⟩ | ⟨rfl, file, hfile, hnull⟩ | ⟨rfl, htext⟩ | ⟨rfl, hshow⟩ :=
        manifestSettings_eq_breakdown_iff.1 hmanifest
      · exact .untestable_manifest hnone htest
      · exact .null_manifest hfile (Path.hasNull_ofString_iff.1 hnull)
      · exact .undecodable_manifest htext
      · exact .unshowable_manifest hshow
    obtain hoverride | ⟨s, hs, h⟩ := bind_eq_error_iff.1 h
    · exact absurd hoverride (override_ne_breakdown _)
    replace hs : settings? t o = some s := settings?_eq_some_iff.2 ⟨found, hfound, hs⟩
    obtain hcollect | ⟨files, -, h⟩ := bind_eq_error_iff.1 h
    · obtain ⟨hroot, rfl⟩ | ⟨hdirectory, hfirst⟩ := FileSet.collect_eq_breakdown_iff.1 hcollect
      · exact .untestable_root hs hroot
      · exact .pattern hs hdirectory hfirst
    · cases hfiles : FileSet.lintFiles t files <;>
        simp [hfiles, Except.mapError, bind, Except.bind, pure, Except.pure] at h
  · have hmanifest (h : manifestSettings t o = .error (.breakdown b)) :
        results t o = .error (.breakdown b) := by
      rw [results, h]
      rfl
    rintro (⟨hnone, htest⟩ | ⟨hfile, hnull⟩ | htext | hshow | ⟨hs, hroot⟩ |
      ⟨hs, hdirectory, hfirst⟩)
    · exact hmanifest (manifestSettings_eq_breakdown_iff.2 (.inl ⟨rfl, hnone, htest⟩))
    · exact hmanifest (manifestSettings_eq_breakdown_iff.2
        (.inr (.inl ⟨rfl, _, hfile, Path.hasNull_ofString_iff.2 hnull⟩)))
    · exact hmanifest (manifestSettings_eq_breakdown_iff.2 (.inr (.inr (.inl ⟨rfl, htext⟩))))
    · exact hmanifest (manifestSettings_eq_breakdown_iff.2 (.inr (.inr (.inr ⟨rfl, hshow⟩))))
    · exact results_of_settings? hs (FileSet.collect_eq_breakdown_iff.2 (.inl ⟨hroot, rfl⟩))
    · exact results_of_settings? hs (FileSet.collect_eq_breakdown_iff.2 (.inr ⟨hdirectory, hfirst⟩))

/-- **What breaks a run off, and nothing else does.** Let nothing that a run looks at be nested too
deep.

* A manifest gives the settings that its `lint` table describes, it is a problem that names the
  manifest, or it is not expected: its path holds the character U+0000, it is no text, or it asks
  for a form of the report by an integer that is too long to be shown.
* A run ends with 0, 1 or 2, unless it is broken off: by a manifest that is not expected; by a name
  that is too long for telling what the manifest, the root or a path that a pattern stands for leads
  to; by the character U+0000 in front of the wildcards of a pattern; or by links in a path of a
  file that go in a circle where they are replaced.

**Proof sketch.** Each entry of a `lint` table is missing, in form or a problem
(`Manifest.load_eq_ok_iff`); for the run, see `results_eq_breakdown_iff`. The depth is of no use in
the proof: it keeps to runs in which the stack of the interpreter does not come to its end. -/
theorem runLint_broken_iff (t : FileTree) (o : LintOptions) (_hmoderate : Moderate t o) :
    (∀ file, Manifest.Moderate t file →
      (∀ s, Manifest.load t file = .ok s ↔ ∃ bytes text document lint,
        t.read file = .ok bytes ∧ Text.Utf8.decode? bytes = some text ∧
        Toml.parse? (Text.unifyNewlines text) = some document ∧
        Manifest.IsLintTable document lint ∧ Manifest.Describes file lint s) ∧
      (∀ p, Manifest.load t file = .error (.problem p) →
        ∃ key message, p = ⟨.manifest, message, some ⟨file, key⟩⟩) ∧
      ∀ b, Manifest.load t file = .error (.breakdown b) ↔
        b = .nullCharacter ∧ file.hasNull = true ∨ b = .undecodable ∧ Manifest.IsNoText t file ∨
          b = .unshowable ∧ Manifest.IsUnshowable t file) ∧
      (∀ code out err, runLint t o = .exit code out err → code ≤ 2) ∧
      ∀ b, runLint t o = .broken b ↔ Breaks t o b := by
  refine ⟨fun _ _ => ⟨fun _ => Manifest.load_eq_ok_iff, fun _ => Manifest.exists_problem_of_load,
    fun _ => Manifest.load_eq_breakdown_iff⟩, fun code out err h => ?_, fun b => ?_⟩
  · rw [runLint] at h
    cases hresults : results t o with
    | ok found =>
      simp only [hresults, Outcome.exit.injEq] at h
      obtain ⟨rfl, -⟩ := h
      split <;> omega
    | error e =>
      cases e with
      | problem p =>
        simp only [hresults, Outcome.exit.injEq] at h
        omega
      | breakdown b => simp [hresults] at h
  · rw [← results_eq_breakdown_iff, runLint]
    cases results t o with
    | ok found => simp
    | error e => cases e <;> simp

/-- **A pattern breaks a run off** if it has the character U+0000 in front of a wildcard. -/
theorem runLint_broken_by_pattern :
    let t : FileTree := ⟨.directory [("a.jls", .file [])], []⟩
    let o := LintOptions.pattern "\x00/*"
    Moderate t o ∧ runLint t o = .broken .nullCharacter := by
  intro t o
  have hfile : HasFile t "a.jls" := hasFile_singleton (by decide) (by simp) (by decide) []
  have hsettings : settings? t o = some ⟨["\x00/*"], ⟨.relative, []⟩, .human⟩ := by
    rw [settings?, hfile.manifestSettings_of_none rfl]
    rfl
  have hmoderate : Moderate t o := by
    refine moderate_singleton hfile rfl fun s hs pattern hpattern => ?_
    obtain rfl := Option.some.inj (hsettings.symm.trans hs)
    obtain rfl := List.mem_singleton.1 hpattern
    decide
  have hfirst : FirstOf (FileSet.Obstructs t ⟨.relative, []⟩) ["\x00/*"] .nullCharacter :=
    ⟨[], _, [], rfl, List.forall_mem_nil _, .null (by decide)⟩
  obtain ⟨-, -, hbroken⟩ := runLint_broken_iff t o hmoderate
  exact ⟨hmoderate,
    (hbroken .nullCharacter).2 (.pattern hsettings hmoderate.workingDirectory hfirst)⟩

/-- **A manifest of a single byte breaks a run off**, whatever it is asked for: the byte starts no
scalar. -/
theorem runLint_broken_by_manifest :
    let t : FileTree := ⟨.directory [("julietscript.toml", .file [0xFF])], []⟩
    Manifest.load t (.ofString "julietscript.toml") = .error (.breakdown .undecodable) ∧
      ∀ o : LintOptions, o.manifest = none → runLint t o = .broken .undecodable := by
  intro t
  have htext : Text.Utf8.decode? [0xFF] = none := by decide +kernel
  have hsize : (Path.mk .root ["julietscript.toml"]).text.utf8ByteSize < FileTree.pathLimit := by
    decide
  have hname : FileTree.IsName "julietscript.toml" := by decide
  have hread : t.read ⟨.relative, ["julietscript.toml"]⟩ = .ok [0xFF] := by
    rw [FileTree.read, FileTree.resolve_file (t := t) rfl hname rfl]
  have hfile : Path.ofString "julietscript.toml" = ⟨.relative, ["julietscript.toml"]⟩ := by decide
  refine ⟨?_, fun o hnone => ?_⟩
  · rw [hfile]
    exact Manifest.load_eq_breakdown_iff.2 (.inr (.inl ⟨rfl, _, hread, htext⟩))
  · have hbytes : t.read (manifestPath t o) = .ok [0xFF] := by
      rw [manifestPath, hnone]
      simp only [workingPath_join_fileName]
      exact FileTree.read_of_descend? (List.forall_mem_singleton.2 hname) hsize rfl
    have hbreaks : Breaks t o .undecodable := .undecodable_manifest ⟨_, hbytes, htext⟩
    simp only [runLint, results_eq_breakdown_iff.2 hbreaks]

end Command

end WorkflowLint
