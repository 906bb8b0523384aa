import WorkflowLint.Manifest
import WorkflowLint.Proofs.Walk

/-!
# Reading a manifest

A manifest gives the settings that its `lint` table describes, or there is a problem that names the
manifest. Three kinds of manifests are not expected: one whose path the system refuses, one whose
bytes are no text, and one that asks for a form of the report by a value that should be shown in a
message, and cannot be.

## Main definitions

* `WorkflowLint.Manifest.Describes` — the `lint` table of a manifest describes settings.
* `WorkflowLint.Manifest.IsNoText`, `WorkflowLint.Manifest.IsUnshowable` — what is not expected of
  a manifest.

## Main results

* `WorkflowLint.Manifest.load_eq_ok_iff` — the settings in a manifest.
* `WorkflowLint.Manifest.load_eq_breakdown_iff` — when a manifest is not expected.
* `WorkflowLint.Manifest.exists_problem_of_load` — any other problem names the manifest.
-/

set_option autoImplicit false

namespace WorkflowLint

/-! ## Steps that may fail -/

section Steps

variable {ε α β : Type} {x : Except ε α} {f : α → Except ε β}

lemma bind_eq_ok_iff {b : β} : (x >>= f) = .ok b ↔ ∃ a, x = .ok a ∧ f a = .ok b := by
  cases x <;> simp [bind, Except.bind]

lemma bind_eq_error_iff {e : ε} :
    (x >>= f) = .error e ↔ x = .error e ∨ ∃ a, x = .ok a ∧ f a = .error e := by
  cases x <;> simp [bind, Except.bind]

lemma return_eq_ok_iff {a b : α} : (pure a : Except ε α) = .ok b ↔ a = b :=
  Except.ok.injEq a b ▸ .rfl

lemma return_ne_error {a : α} {e : ε} : (pure a : Except ε α) ≠ .error e :=
  fun h => nomatch h

end Steps

/-! ## Manifests -/

namespace Manifest

variable {file : Path} {lint document : List (String × Toml.Value)} {s : Settings}

/-- The entries of a `lint` table describe settings. An entry may be missing; if it is there then it
is of the right form. A relative root starts at the directory of the manifest. -/
structure Describes (file : Path) (lint : List (String × Toml.Value)) (s : Settings) : Prop where
  globs : lint.lookup "globs" = none ∧ s.globs = [] ∨
    lint.lookup "globs" = some (.array (s.globs.map .string))
  root : lint.lookup "root" = none ∧ s.root = file.parent ∨
    ∃ root, lint.lookup "root" = some (.string root) ∧ s.root =
      if (Path.ofString root).isAbsolute then .ofString root else file.parent.join (.ofString root)
  format : lint.lookup "format" = none ∧ s.format = .human ∨
    lint.lookup "format" = some (.string s.format.name)

/-- The `lint` table of a document, which is empty if it is missing. -/
def IsLintTable (document lint : List (String × Toml.Value)) : Prop :=
  document.lookup "lint" = none ∧ lint = [] ∨ document.lookup "lint" = some (.table lint)

/-- The manifest at the path `file` is a TOML document with the given `lint` table. -/
def Holds (t : FileTree) (file : Path) (lint : List (String × Toml.Value)) : Prop :=
  ∃ bytes text document, t.read file = .ok bytes ∧ Text.Utf8.decode? bytes = some text ∧
    Toml.parse? (Text.unifyNewlines text) = some document ∧ IsLintTable document lint

/-- The path leads to a file whose bytes are no text. -/
def IsNoText (t : FileTree) (file : Path) : Prop :=
  ∃ bytes, t.read file = .ok bytes ∧ Text.Utf8.decode? bytes = none

/-- The entries of a `lint` table ask for a form of the report by a value that cannot be shown,
because an integer in it has too many digits. What is looked at before is of the right form. -/
structure Unshowable (lint : List (String × Toml.Value)) : Prop where
  globs : lint.lookup "globs" = none ∨
    ∃ globs : List String, lint.lookup "globs" = some (.array (globs.map .string))
  root : lint.lookup "root" = none ∨ ∃ root, lint.lookup "root" = some (.string root)
  format : ∃ v, lint.lookup "format" = some v ∧ v.isShowable = false

/-- The manifest at the path `file` has such a `lint` table. -/
def IsUnshowable (t : FileTree) (file : Path) : Prop := ∃ lint, Holds t file lint ∧ Unshowable lint

/-! ### Values -/

lemma string?_eq_some_iff {v : Toml.Value} {text : String} :
    v.string? = some text ↔ v = .string text := by
  cases v <;> simp [Toml.Value.string?]

lemma table?_eq_some_iff {v : Toml.Value} {entries : List (String × Toml.Value)} :
    v.table? = some entries ↔ v = .table entries := by
  cases v <;> simp [Toml.Value.table?]

lemma mapM_string?_eq_some_iff {items : List Toml.Value} {texts : List String} :
    items.mapM Toml.Value.string? = some texts ↔ items = texts.map .string := by
  induction items generalizing texts with
  | nil => cases texts <;> simp
  | cons v items ih =>
    rw [List.mapM_cons]
    cases texts <;> simp [Option.bind_eq_some_iff, string?_eq_some_iff, ih]

lemma strings?_eq_some_iff {v : Toml.Value} {texts : List String} :
    v.strings? = some texts ↔ v = .array (texts.map .string) := by
  cases v <;> simp [Toml.Value.strings?, mapM_string?_eq_some_iff]

lemma ofName?_eq_some_iff {name : String} {format : OutputFormat} :
    OutputFormat.ofName? name = some format ↔ format.name = name := by
  constructor
  · intro h
    simpa using List.find?_some h
  · rintro rfl
    cases format <;> decide

/-! ### Entries -/

lemma globs_eq_ok_iff {patterns : List String} : globs file lint = .ok patterns ↔
    lint.lookup "globs" = none ∧ patterns = [] ∨
      lint.lookup "globs" = some (.array (patterns.map .string)) := by
  unfold globs
  cases lint.lookup "globs" with
  | none => simp [eq_comm]
  | some v =>
    simp only [reduceCtorEq, false_and, false_or, Option.some.injEq, ← strings?_eq_some_iff]
    cases v.strings? <;> simp

lemma root_eq_ok_iff {root : Path} : Manifest.root file lint = .ok root ↔
    lint.lookup "root" = none ∧ root = file.parent ∨
      ∃ text, lint.lookup "root" = some (.string text) ∧ root =
        if (Path.ofString text).isAbsolute then .ofString text
        else file.parent.join (.ofString text) := by
  unfold Manifest.root
  cases lint.lookup "root" with
  | none => simp [eq_comm (a := root)]
  | some v =>
    cases htext : v.string? with
    | none => simp [← string?_eq_some_iff, htext]
    | some text =>
      obtain rfl := string?_eq_some_iff.1 htext
      by_cases habsolute : (Path.ofString text).isAbsolute = true
      · simp [Path.join, htext, habsolute, eq_comm (a := root)]
      · simp [htext, habsolute, eq_comm (a := root)]

lemma format_eq_ok_iff {form : OutputFormat} : format file lint = .ok form ↔
    lint.lookup "format" = none ∧ form = .human ∨
      lint.lookup "format" = some (.string form.name) := by
  unfold format
  cases lint.lookup "format" with
  | none => simp [eq_comm]
  | some v =>
    have hname : (v.string? >>= OutputFormat.ofName?) = some form ↔ v = .string form.name := by
      simp [Option.bind_eq_some_iff, string?_eq_some_iff, ofName?_eq_some_iff]
    simp only [reduceCtorEq, false_and, false_or, Option.some.injEq, ← hname]
    cases v.string? >>= OutputFormat.ofName? with
    | none => cases v.isShowable <;> simp
    | some other => simp

lemma exists_globs_iff : (∃ patterns, globs file lint = .ok patterns) ↔
    lint.lookup "globs" = none ∨
      ∃ patterns : List String, lint.lookup "globs" = some (.array (patterns.map .string)) := by
  simp only [globs_eq_ok_iff, exists_or, exists_and_left, exists_eq, and_true]

lemma exists_root_iff : (∃ root, Manifest.root file lint = .ok root) ↔
    lint.lookup "root" = none ∨ ∃ root, lint.lookup "root" = some (.string root) := by
  simp only [root_eq_ok_iff, exists_or, exists_and_left, exists_eq, and_true]
  refine or_congr_right ⟨?_, ?_⟩
  · rintro ⟨_, text, htext, -⟩
    exact ⟨text, htext⟩
  · rintro ⟨text, htext⟩
    exact ⟨_, text, htext, rfl⟩

/-! ### Entries that are wrong -/

/-- All that goes wrong is a problem with the manifest `file`, or a value that cannot be shown. -/
def Faults {α : Type} (file : Path) (x : Except Failure α) : Prop :=
  ∀ e, x = .error e → (∃ key message, e = problem file key message) ∨ e = .breakdown .unshowable

lemma faults_ok {α : Type} (file : Path) (a : α) : Faults file (.ok a) := fun _ h => nomatch h

lemma faults_problem {α : Type} (file : Path) (key : Option String) (message : String) :
    Faults file (.error (problem file key message) : Except Failure α) :=
  fun _ h => .inl ⟨key, message, (Except.error.inj h).symm⟩

lemma Faults.bind {α β : Type} {x : Except Failure α} {f : α → Except Failure β}
    (hx : Faults file x) (hf : ∀ a, Faults file (f a)) : Faults file (x >>= f) := by
  cases x with
  | error e => exact fun e' h => hx e' (congrArg Except.error (Except.error.inj h))
  | ok a => exact hf a

lemma globs_ne_breakdown {b : Breakdown} : globs file lint ≠ .error (.breakdown b) := by
  unfold globs
  split
  · simp
  · split <;> simp [problem]

lemma root_ne_breakdown {b : Breakdown} : Manifest.root file lint ≠ .error (.breakdown b) := by
  unfold Manifest.root
  split
  · simp
  · split <;> simp [problem]

/-- A value that cannot be shown is no string, and so it names no form. -/
lemma format_eq_breakdown_iff {b : Breakdown} : format file lint = .error (.breakdown b) ↔
    b = .unshowable ∧ ∃ v, lint.lookup "format" = some v ∧ v.isShowable = false := by
  unfold format
  cases lint.lookup "format" with
  | none => simp
  | some v =>
    simp only [Option.some.injEq, exists_eq_left']
    cases hshow : v.isShowable with
    | true => cases v.string? >>= OutputFormat.ofName? <;> simp [problem]
    | false =>
      have hname : v.string? >>= OutputFormat.ofName? = none := by
        cases v with
        | string text => cases hshow
        | _ => rfl
      simp [hname, eq_comm]

/-- What the entries of a `lint` table say is used, or it is a problem with the manifest. -/
lemma faults_entries : Faults file (globs file lint) ∧ Faults file (Manifest.root file lint) ∧
    Faults file (format file lint) := by
  unfold globs Manifest.root format
  refine ⟨?_, ?_, ?_⟩
  · split
    · exact faults_ok _ _
    · split
      · exact faults_ok _ _
      · exact faults_problem _ _ _
  · split
    · exact faults_ok _ _
    · split
      · exact faults_ok _ _
      · exact faults_problem _ _ _
  · split
    · exact faults_ok _ _
    · split
      · exact faults_ok _ _
      · split
        · exact faults_problem _ _ _
        · exact fun _ h => .inr (Except.error.inj h).symm

/-! ### Whole manifests -/

/-- The entries of a `lint` table, read one after the other. -/
lemma entries_eq_ok_iff :
    (do return (⟨← globs file lint, ← root file lint, ← format file lint⟩ : Settings)) = .ok s ↔
      Describes file lint s := by
  simp only [bind_eq_ok_iff, return_eq_ok_iff, globs_eq_ok_iff, root_eq_ok_iff, format_eq_ok_iff]
  constructor
  · rintro ⟨_, hglobs, _, hroot, _, hformat, rfl⟩
    exact ⟨hglobs, hroot, hformat⟩
  · rintro ⟨hglobs, hroot, hformat⟩
    exact ⟨_, hglobs, _, hroot, _, hformat, rfl⟩

lemma lintTable_eq_some_iff :
    ((document.lookup "lint").getD (.table [])).table? = some lint ↔ IsLintTable document lint := by
  rw [table?_eq_some_iff, IsLintTable]
  cases document.lookup "lint" <;> simp [eq_comm]

lemma settings_eq_ok_iff {text : String} : settings file text = .ok s ↔
    ∃ document lint, Toml.parse? text = some document ∧ IsLintTable document lint ∧
      Describes file lint s := by
  unfold settings
  cases Toml.parse? text with
  | none => simp
  | some document =>
    cases hlint : ((document.lookup "lint").getD (.table [])).table? with
    | none => simp [← lintTable_eq_some_iff, hlint]
    | some lint =>
      simp only [hlint]
      rw [entries_eq_ok_iff]
      simp [← lintTable_eq_some_iff, hlint]

lemma readText_eq_ok_iff {t : FileTree} {text : String} : readText t file = .ok text ↔
    ∃ bytes plain, t.read file = .ok bytes ∧ Text.Utf8.decode? bytes = some plain ∧
      Text.unifyNewlines plain = text := by
  unfold readText
  cases hnull : file.hasNull with
  | true => simp [FileTree.read, FileTree.resolve, hnull]
  | false =>
    cases t.read file with
    | error e => simp
    | ok bytes => cases hplain : Text.Utf8.decode? bytes <;> simp [hplain]

/-- **The settings in a manifest** are those that its `lint` table describes. -/
lemma load_eq_ok_iff {t : FileTree} : load t file = .ok s ↔
    ∃ bytes text document lint, t.read file = .ok bytes ∧
      Text.Utf8.decode? bytes = some text ∧
      Toml.parse? (Text.unifyNewlines text) = some document ∧ IsLintTable document lint ∧
      Describes file lint s := by
  simp only [load, bind_eq_ok_iff, readText_eq_ok_iff, settings_eq_ok_iff]
  constructor
  · rintro ⟨_, ⟨bytes, text, hread, htext, rfl⟩, document, lint, hsettings⟩
    exact ⟨bytes, text, document, lint, hread, htext, hsettings⟩
  · rintro ⟨bytes, text, document, lint, hread, htext, hsettings⟩
    exact ⟨_, ⟨bytes, text, hread, htext, rfl⟩, document, lint, hsettings⟩

/-- What a manifest says is used, or it is a problem with the manifest. -/
lemma faults_settings (file : Path) (text : String) : Faults file (settings file text) := by
  unfold settings
  split
  · split
    · obtain ⟨hglobs, hroot, hformat⟩ := faults_entries
      exact hglobs.bind fun _ => hroot.bind fun _ => hformat.bind fun _ => faults_ok _ _
    · exact faults_problem _ _ _
  · exact faults_problem _ _ _

lemma entries_eq_breakdown_iff {b : Breakdown} :
    (do return (⟨← globs file lint, ← root file lint, ← format file lint⟩ : Settings)) =
        .error (.breakdown b) ↔ b = .unshowable ∧ Unshowable lint := by
  simp only [bind_eq_error_iff, globs_ne_breakdown, root_ne_breakdown, format_eq_breakdown_iff,
    return_ne_error, false_or, and_false, or_false, exists_false]
  constructor
  · rintro ⟨globs, hglobs, root, hroot, rfl, hformat⟩
    exact ⟨rfl, exists_globs_iff.1 ⟨globs, hglobs⟩, exists_root_iff.1 ⟨root, hroot⟩, hformat⟩
  · rintro ⟨rfl, hglobs, hroot, hformat⟩
    obtain ⟨globs, hglobs⟩ := exists_globs_iff.2 hglobs
    obtain ⟨root, hroot⟩ := exists_root_iff.2 hroot
    exact ⟨globs, hglobs, root, hroot, rfl, hformat⟩

lemma settings_eq_breakdown_iff {text : String} {b : Breakdown} :
    settings file text = .error (.breakdown b) ↔ b = .unshowable ∧
      ∃ document lint, Toml.parse? text = some document ∧ IsLintTable document lint ∧
        Unshowable lint := by
  unfold settings
  cases Toml.parse? text with
  | none => simp [problem]
  | some document =>
    cases hlint : ((document.lookup "lint").getD (.table [])).table? with
    | none => simp [← lintTable_eq_some_iff, hlint, problem]
    | some lint =>
      simp only [hlint]
      rw [entries_eq_breakdown_iff]
      simp [← lintTable_eq_some_iff, hlint]

lemma readText_eq_breakdown_iff {t : FileTree} {b : Breakdown} :
    readText t file = .error (.breakdown b) ↔
      b = .nullCharacter ∧ file.hasNull = true ∨ b = .undecodable ∧ IsNoText t file := by
  unfold readText IsNoText
  cases hnull : file.hasNull with
  | true => simp [FileTree.read, FileTree.resolve, hnull, eq_comm]
  | false =>
    cases t.read file with
    | error e => simp [problem]
    | ok bytes => cases htext : Text.Utf8.decode? bytes <;> simp [htext, eq_comm]

/-- **When a manifest is not expected**: its path holds the character U+0000, its bytes are no text,
or what should be shown of it cannot be shown. -/
lemma load_eq_breakdown_iff {t : FileTree} {b : Breakdown} :
    load t file = .error (.breakdown b) ↔
      b = .nullCharacter ∧ file.hasNull = true ∨ b = .undecodable ∧ IsNoText t file ∨
        b = .unshowable ∧ IsUnshowable t file := by
  rw [load, bind_eq_error_iff, readText_eq_breakdown_iff, or_assoc]
  refine or_congr_right (or_congr_right ?_)
  simp only [readText_eq_ok_iff, settings_eq_breakdown_iff]
  constructor
  · rintro ⟨_, ⟨bytes, text, hread, htext, rfl⟩, rfl, document, lint, hparse, htable, hlint⟩
    exact ⟨rfl, lint, ⟨bytes, text, document, hread, htext, hparse, htable⟩, hlint⟩
  · rintro ⟨rfl, lint, ⟨bytes, text, document, hread, htext, hparse, htable⟩, hlint⟩
    exact ⟨_, ⟨bytes, text, hread, htext, rfl⟩, rfl, document, lint, hparse, htable, hlint⟩

/-- A problem with a manifest names the manifest. -/
lemma exists_problem_of_load {t : FileTree} {p : Problem}
    (h : load t file = .error (.problem p)) :
    ∃ key message, p = ⟨.manifest, message, some ⟨file, key⟩⟩ := by
  obtain hread | ⟨text, -, hsettings⟩ := bind_eq_error_iff.1 h
  · unfold readText at hread
    split at hread
    · cases hread
    split at hread
    · rw [problem, Except.error.injEq, Failure.problem.injEq] at hread
      exact ⟨_, _, hread.symm⟩
    · split at hread
      · cases hread
      · cases hread
  · obtain ⟨key, message, heq⟩ | heq := faults_settings file text _ hsettings
    · exact ⟨key, message, Failure.problem.inj heq⟩
    · cases heq

end Manifest

end WorkflowLint
