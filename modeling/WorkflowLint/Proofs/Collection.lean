import Mathlib.Data.List.Sort
import Mathlib.Data.String.Basic
import WorkflowLint.Proofs.Obstacle

/-!
# What is collected

The files of a run are determined by which they are: there is one list without repetitions that is
in the order of path components. And which they are is what the patterns lead to, below a directory
whose path has no characters with a meaning in patterns.

## Main definitions

* `WorkflowLint.FileSet.Place` — a directory without links that is reached by a path without
  characters that have a meaning in patterns.

## Main results

* `WorkflowLint.FileSet.collect_cases`, `WorkflowLint.FileSet.collect_eq_iff_of_mem_iff` — the
  outcomes of collecting files.
* `WorkflowLint.FileSet.ofString_fullPattern` — a pattern behind a path, component by component.
* `WorkflowLint.FileSet.mem_filesAmong_candidates` — which files the patterns lead to.
* `WorkflowLint.FileSet.collect_of_literal` — a pattern without wildcards.
-/

set_option autoImplicit false

namespace WorkflowLint

/-! ## Outcomes -/

namespace FileSet

variable {t : FileTree} {root : Path} {patterns : List String} {files : List Path} {f : Path}

lemma nodup_eraseDups (paths : List Path) : paths.eraseDups.Nodup := by
  induction hn : paths.length using Nat.strongRecOn generalizing paths with
  | _ n ih =>
    subst hn
    cases paths with
    | nil => exact .nil
    | cons p paths =>
      rw [List.eraseDups_cons, List.nodup_cons]
      refine ⟨fun hp => ?_, ih _ (Nat.lt_succ_of_le (List.length_filter_le _ _)) _ rfl⟩
      rw [List.mem_eraseDups, List.mem_filter] at hp
      simp at hp

lemma mem_filesAmong {paths : List Path} :
    f ∈ filesAmong t paths ↔ ∃ x ∈ paths, t.isFile x = true ∧ t.canonical? x = some f := by
  simp only [filesAmong, List.mem_filterMap, List.mem_filter, and_assoc]

/-- Where a path leads is told from the root. -/
lemma anchor_of_mem_filesAmong {paths : List Path} (h : f ∈ filesAmong t paths) :
    f.anchor = .root := by
  obtain ⟨x, -, -, hx⟩ := mem_filesAmong.1 h
  exact FileTree.anchor_of_canonical? hx

lemma le_iff {p q : Path} :
    Path.le p q = true ↔ p.anchor.text :: p.parts ≤ q.anchor.text :: q.parts := by
  rw [Path.le, Bool.not_eq_true', Bool.eq_false_iff, ne_eq, List.lex_eq_true_iff_lt]
  exact not_lt

/-- Paths in the order of their components, none of them twice. -/
def Ordered (files : List Path) : Prop := files.Pairwise fun f g => f.parts < g.parts

/-- Sorting puts paths from the root in order. -/
lemma ordered_mergeSort {paths : List Path} (h : ∀ f ∈ paths, f.anchor = .root) :
    Ordered (paths.eraseDups.mergeSort Path.le) := by
  have hsorted : (paths.eraseDups.mergeSort Path.le).Pairwise fun f g => Path.le f g = true := by
    refine List.pairwise_mergeSort (fun f g k hfg hgk => ?_) (fun f g => ?_) _
    · exact le_iff.2 ((le_iff.1 hfg).trans (le_iff.1 hgk))
    · rw [Bool.or_eq_true, le_iff, le_iff]
      exact le_total _ _
  have hnodup : (paths.eraseDups.mergeSort Path.le).Nodup :=
    (List.mergeSort_perm _ _).nodup_iff.2 (nodup_eraseDups paths)
  refine (hsorted.and hnodup).imp_of_mem fun {f g} hf hg hfg => ?_
  have hroot : f.anchor = g.anchor := by
    rw [h f (List.mem_eraseDups.1 (List.mem_mergeSort.1 hf)),
      h g (List.mem_eraseDups.1 (List.mem_mergeSort.1 hg))]
  -- the anchors are the same, and so the components decide
  have hcons := le_iff.1 hfg.1
  rw [hroot] at hcons
  have hle : f.parts ≤ g.parts := not_lt.1 fun hlt => not_lt_of_ge hcons (.cons hlt)
  refine lt_of_le_of_ne hle fun hparts => hfg.2 ?_
  obtain ⟨anchor, parts⟩ := f
  obtain ⟨anchor', parts'⟩ := g
  obtain rfl : anchor = anchor' := hroot
  obtain rfl : parts = parts' := hparts
  rfl

/-- The paths of files, in order. -/
lemma ordered_and_mem_mergeSort (paths : List Path) :
    Ordered ((filesAmong t paths).eraseDups.mergeSort Path.le) ∧
      ∀ f, f ∈ (filesAmong t paths).eraseDups.mergeSort Path.le ↔ f ∈ filesAmong t paths :=
  ⟨ordered_mergeSort fun _ => anchor_of_mem_filesAmong, fun f => by
    rw [List.mem_mergeSort, List.mem_eraseDups]⟩

section Unobstructed

variable (hdirectory : t.isDirectory root = true) (hclear : Unobstructed t root patterns)
include hdirectory hclear

/-- If nothing is in the way, then the files among the paths are all that matters. -/
lemma collect_of_filesAmong_eq_nil (h : filesAmong t (candidates t root patterns) = []) :
    collect t root patterns =
      .error (.problem ⟨.files,
        "no files matched. Provided patterns: " ++ ", ".intercalate patterns,
        some ⟨root, none⟩⟩) := by
  have hnone : patterns.findSome? (obstacle? t root) = none := hclear
  simp [collect, canTest_of_isDirectory hdirectory, hdirectory, hnone, h]

lemma collect_of_mem_iff (hne : files ≠ []) (hordered : Ordered files)
    (h : ∀ f, f ∈ files ↔ f ∈ filesAmong t (candidates t root patterns)) :
    collect t root patterns = .ok files := by
  obtain ⟨hsorted, hmem⟩ := ordered_and_mem_mergeSort (t := t) (candidates t root patterns)
  have heq := hsorted.eq_of_mem_iff hordered fun f => (hmem f).trans (h f).symm
  obtain ⟨file, rest, rfl⟩ := List.exists_cons_of_ne_nil hne
  have hnone : patterns.findSome? (obstacle? t root) = none := hclear
  simp [collect, canTest_of_isDirectory hdirectory, hdirectory, hnone, heq]

end Unobstructed

/-- **The outcomes of collecting files**, if it is not broken off: there is no directory, or there
are no files, or the files are collected. -/
lemma collect_cases (h : ∀ b, collect t root patterns ≠ .error (.breakdown b)) :
    (t.isDirectory root = false ∧ collect t root patterns =
        .error (.problem ⟨.files, "root directory does not exist", some ⟨root, none⟩⟩)) ∨
      t.isDirectory root = true ∧
        ((filesAmong t (candidates t root patterns) = [] ∧ collect t root patterns =
            .error (.problem ⟨.files,
              "no files matched. Provided patterns: " ++ ", ".intercalate patterns,
              some ⟨root, none⟩⟩)) ∨
          ∃ files, files ≠ [] ∧ Ordered files ∧
            (∀ f, f ∈ files ↔ f ∈ filesAmong t (candidates t root patterns)) ∧
            collect t root patterns = .ok files) := by
  obtain ⟨hroot, hclear⟩ := collect_ne_breakdown_iff.1 h
  cases hdirectory : t.isDirectory root with
  | false => exact .inl ⟨rfl, by simp [collect, hroot, hdirectory]⟩
  | true =>
    obtain ⟨hordered, hmem⟩ := ordered_and_mem_mergeSort (t := t) (candidates t root patterns)
    by_cases hnil : filesAmong t (candidates t root patterns) = []
    · have hcollect := collect_of_filesAmong_eq_nil hdirectory (hclear hdirectory) hnil
      exact .inr ⟨rfl, .inl ⟨hnil, hcollect⟩⟩
    · obtain ⟨f, hf⟩ := List.exists_mem_of_ne_nil _ hnil
      have hne := List.ne_nil_of_mem ((hmem f).2 hf)
      exact .inr ⟨rfl, .inr ⟨_, hne, hordered, hmem,
        collect_of_mem_iff hdirectory (hclear hdirectory) hne hordered hmem⟩⟩

/-- If it is known which files there are among the paths, it is known when collecting fails, and
what it returns. -/
lemma collect_eq_iff_of_mem_iff {P : Path → Prop}
    (hunbroken : ∀ b, collect t root patterns ≠ .error (.breakdown b))
    (hdirectory : ∀ f, P f → t.isDirectory root = true)
    (hmem : t.isDirectory root = true →
      ∀ f, f ∈ filesAmong t (candidates t root patterns) ↔ P f) :
    ((∃ p, p.area = .files ∧ collect t root patterns = .error (.problem p)) ↔
        t.isDirectory root = false ∨ ∀ f, ¬ P f) ∧
      ∀ files, collect t root patterns = .ok files ↔
        files ≠ [] ∧ Ordered files ∧ ∀ f, f ∈ files ↔ P f := by
  -- no directory and no files come to the same: there is nothing to list
  have hfailed : ∀ {p}, p.area = .files → collect t root patterns = .error (.problem p) →
      (∀ f, ¬ P f) →
      ((∃ p, p.area = .files ∧ collect t root patterns = .error (.problem p)) ↔
          t.isDirectory root = false ∨ ∀ f, ¬ P f) ∧
        ∀ files, collect t root patterns = .ok files ↔
          files ≠ [] ∧ Ordered files ∧ ∀ f, f ∈ files ↔ P f := by
    intro p harea hp hnone
    refine ⟨⟨fun _ => .inr hnone, fun _ => ⟨p, harea, hp⟩⟩, fun files => ⟨fun hfiles => ?_, ?_⟩⟩
    · cases hp.symm.trans hfiles
    · rintro ⟨hne, -, hlisted⟩
      obtain ⟨f, hf⟩ := List.exists_mem_of_ne_nil files hne
      exact absurd ((hlisted f).1 hf) (hnone f)
  obtain ⟨hnone, hcollect⟩ | ⟨htrue, ⟨hnil, hcollect⟩ | ⟨found, hne, hordered, hfound, hcollect⟩⟩ :=
    collect_cases hunbroken
  · refine hfailed rfl hcollect fun f hf => ?_
    exact Bool.false_ne_true (hnone.symm.trans (hdirectory f hf))
  · refine hfailed rfl hcollect fun f hf => ?_
    rw [← hmem htrue, hnil] at hf
    cases hf
  · have hlisted : ∀ f, f ∈ found ↔ P f := fun f => (hfound f).trans (hmem htrue f)
    refine ⟨⟨?_, ?_⟩, fun files => ⟨fun hfiles => ?_, ?_⟩⟩
    · rintro ⟨p, -, hp⟩
      cases hcollect.symm.trans hp
    · rintro (hnone | hnone)
      · cases htrue.symm.trans hnone
      · obtain ⟨f, hf⟩ := List.exists_mem_of_ne_nil found hne
        exact absurd ((hlisted f).1 hf) (hnone f)
    · obtain rfl := Except.ok.inj (hcollect.symm.trans hfiles)
      exact ⟨hne, hordered, hlisted⟩
    · rintro ⟨-, hfiles, hmem'⟩
      rw [hfiles.eq_of_mem_iff hordered fun f => (hmem' f).trans (hlisted f).symm]
      exact hcollect

end FileSet

/-! ## Components of a pattern -/

namespace Glob

/-- What is read as a name is the component itself. -/
lemma Piece.eq_of_ofChars_eq_literal {part name : String}
    (h : Piece.ofChars part.toList = .literal name) : part = name := by
  unfold Piece.ofChars at h
  split_ifs at h
  simpa using h

/-- No component asks for directories only. -/
lemma Piece.ofChars_ne_directoryOnly (cs : List Char) : Piece.ofChars cs ≠ .directoryOnly := by
  unfold Piece.ofChars
  split_ifs <;> simp

/-- The components of a relative pattern. -/
def pieces (parts : List String) : List Piece := parts.map fun part => .ofChars part.toList

lemma properLiterals_pieces {parts : List String} (hparts : ∀ part ∈ parts, Path.IsPart part)
    (hparent : ".." ∉ parts) : ProperLiterals (pieces parts) := by
  intro name hname other hother
  obtain rfl := List.mem_singleton.1 hother
  obtain ⟨part, hpart, hpiece⟩ := List.mem_map.1 hname
  obtain rfl := Piece.eq_of_ofChars_eq_literal hpiece
  have hproper := hparts part hpart
  simp only [List.mem_cons, List.not_mem_nil, or_false, not_or]
  exact ⟨hproper.1, hproper.2.1, fun heq => hparent (heq ▸ hpart)⟩

lemma directoryOnly_notMem_pieces (parts : List String) : .directoryOnly ∉ pieces parts := by
  intro h
  obtain ⟨part, -, hpiece⟩ := List.mem_map.1 h
  exact Piece.ofChars_ne_directoryOnly _ hpiece

end Glob

namespace FileSet

open FileTree

/-! ## Patterns below a place -/

/-- The path `p` leads to a directory `n` without links, at `place`. The links on the way there are
seen, and the path is made of names without characters that have a meaning in patterns. -/
structure Place (t : FileTree) (p : Path) (place : List String) (n : Node) : Prop where
  resolve : t.resolve true p = .ok (place, n)
  seen : ¬ t.HidesLink p
  plain : n.Plain
  isDirectory : n.isDirectory = true
  isPart : ∀ part ∈ p.parts, Path.IsPart part
  literal : ∀ part ∈ p.parts, Glob.Literal part

/-- A pattern is relative, and does not lead back. -/
structure Below (pattern : String) : Prop where
  isAbsolute : (Path.ofString pattern).isAbsolute = false
  parent : ".." ∉ (Path.ofString pattern).parts

variable {t : FileTree} {p : Path} {place : List String} {n : Node} {patterns : List String}
  {pattern : String} {ds : List String} {f : Path}

/-- **A pattern behind a path** is read component by component. -/
lemma ofString_fullPattern (hp : Place t p place n) (hpattern : Below pattern)
    (hds : ∀ part ∈ ds, Path.IsPart part) (hne : ds ++ (Path.ofString pattern).parts ≠ []) :
    Glob.Pattern.ofString (fullPattern (p.down ds) pattern) =
      ⟨p.anchor, p.parts.map .literal ++ Glob.pieces (ds ++ (Path.ofString pattern).parts)⟩ := by
  have hfull : fullPattern (p.down ds) pattern =
      (p.down (ds ++ (Path.ofString pattern).parts)).text := by
    rw [fullPattern, Path.join, hpattern.isAbsolute, ← Path.down_down]
    rfl
  have hparts : ∀ part ∈ (p.down (ds ++ (Path.ofString pattern).parts)).parts,
      Path.IsPart part := by
    intro part hpart
    obtain hpart | hpart := List.mem_append.1 hpart
    · exact hp.isPart part hpart
    · exact (List.mem_append.1 hpart).elim (hds part) Path.isPart_of_mem_ofString
  have hliteral : p.parts.map (fun part => Glob.Piece.ofChars part.toList) =
      p.parts.map .literal :=
    List.map_congr_left fun part hpart => Glob.Piece.ofChars_of_literal (hp.literal part hpart)
  rw [hfull, Glob.Pattern.ofString_text hparts (List.append_ne_nil_of_right_ne_nil _ hne),
    Path.down, List.map_append, hliteral]
  rfl

/-- A path along proper names has no dots to remove. -/
lemma withoutDots_down (hparts : ∀ part ∈ p.parts, Path.IsPart part) {q : List String}
    (hq : Proper q) : (p.down q).withoutDots = p.down q := by
  have hall : (p.parts ++ q).filter (· != ".") = p.parts ++ q := by
    refine List.filter_eq_self.2 fun part hpart => ?_
    rw [bne_iff_ne]
    obtain hpart | hpart := List.mem_append.1 hpart
    · exact (hparts part hpart).2.1
    · rintro rfl
      exact hq "." hpart (by simp)
  exact congrArg (Path.mk p.anchor) hall

/-- The absolute paths below a place go on from there. -/
lemma Place.canonical? (hp : Place t p place n) {q : List String} (hq : Proper q) :
    t.canonical? (p.down q) = some ⟨.root, place ++ q⟩ :=
  canonical?_down hp.resolve hp.seen hp.plain hp.isDirectory hq

lemma Place.isDirectory_eq (hp : Place t p place n) : t.isDirectory p = true := by
  simp [FileTree.isDirectory, FileTree.find?, hp.resolve, Except.toOption, hp.isDirectory]

/-- It can be told what an entry is exactly if its path is not too long. -/
lemma Place.canTest_down_iff (hp : Place t p place n) {q : List String} {m : Node}
    (hq : n.descend? q = some m) :
    t.canTest (p.down q) = true ↔ (p.down q).text.utf8ByteSize < pathLimit := by
  refine ⟨fun htest => ?_, canTest_down hp.resolve hp.plain (hp.plain q m hq).2⟩
  by_contra hlong
  have hnull : ¬ (p.down q).hasNull = true := fun hnull => by
    cases (descend?_of_hasNull hp.resolve hp.plain hnull).symm.trans hq
  rw [canTest, FileTree.resolve, if_neg hnull, if_pos (Nat.le_of_not_lt hlong)] at htest
  cases htest

/-- A pattern starts with names that can be those of entries, and their path, behind `p`, is not too
long. -/
def ShortStart (p : Path) (parts : List String) : Prop :=
  (∀ name ∈ Glob.Pattern.fixedParts (Glob.pieces parts), IsName name) ∧
    (p.down (Glob.Pattern.fixedParts (Glob.pieces parts))).text.utf8ByteSize < pathLimit

instance (p : Path) (parts : List String) : Decidable (ShortStart p parts) :=
  inferInstanceAs (Decidable (_ ∧ _))

section FurtherDown

variable (hp : Place t p place n) (hpatterns : ∀ pattern ∈ patterns, Below pattern)
  (hds : ∀ part ∈ ds, Path.IsPart part ∧ part ≠ "..")

include hpatterns hds

lemma properLiterals_of_mem (hpattern : pattern ∈ patterns) :
    Glob.ProperLiterals (Glob.pieces (ds ++ (Path.ofString pattern).parts)) := by
  refine Glob.properLiterals_pieces (fun part hpart => ?_) fun hparent => ?_
  · exact (List.mem_append.1 hpart).elim (fun h => (hds part h).1) Path.isPart_of_mem_ofString
  · exact (List.mem_append.1 hparent).elim (fun h => (hds ".." h).2 rfl)
      (hpatterns pattern hpattern).parent

variable (hne : ∀ pattern ∈ patterns, ds ++ (Path.ofString pattern).parts ≠ [])
include hp hne

/-- The paths that patterns stand for, behind a directory further down. -/
lemma mem_candidates {x : Path} : x ∈ candidates t (p.down ds) patterns ↔
    ∃ pattern ∈ patterns, x ∈ Glob.Pattern.expand t
      ⟨p.anchor, p.parts.map .literal ++ Glob.pieces (ds ++ (Path.ofString pattern).parts)⟩ := by
  have hshows : t.Shows p (n.viewAt p) := shows_of_resolve hp.resolve hp.plain
  simp only [candidates, List.mem_flatMap, List.mem_map]
  refine exists_congr fun pattern => and_congr_right fun hpattern => ?_
  rw [matched, ofString_fullPattern hp (hpatterns pattern hpattern)
    (fun part hpart => (hds part hpart).1) (hne pattern hpattern)]
  have hdots : ∀ x ∈ Glob.Pattern.expand t
      ⟨p.anchor, p.parts.map .literal ++ Glob.pieces (ds ++ (Path.ofString pattern).parts)⟩,
      x.withoutDots = x := by
    intro x hx
    obtain ⟨q, hq, rfl⟩ := Glob.exists_down_of_mem_expand
      (properLiterals_of_mem hpatterns hds hpattern) hshows (Glob.directoryOnly_notMem_pieces _) hx
    exact withoutDots_down hp.isPart hq
  constructor
  · rintro ⟨x, hx, rfl⟩
    rwa [hdots x hx]
  · exact fun hx => ⟨x, hx, hdots x hx⟩

/-- **The files that patterns lead to**, from a directory further down. -/
lemma mem_filesAmong_candidates : f ∈ filesAmong t (candidates t (p.down ds) patterns) ↔
    ∃ pattern ∈ patterns, ∃ q m,
      Glob.Leads (n.viewAt p) (Glob.pieces (ds ++ (Path.ofString pattern).parts)) q ∧
      n.viewAt p q = some m ∧ m.isFile = true ∧ f = ⟨.root, place ++ q⟩ := by
  have hshows : t.Shows p (n.viewAt p) := shows_of_resolve hp.resolve hp.plain
  have hdirectory : (n.viewAt p).isDirectory = true :=
    (Glob.isDirectory_eq hshows).symm.trans hp.isDirectory_eq
  have hexpand := fun {pattern} (hpattern : pattern ∈ patterns) (x : Path) =>
    Glob.isFile_and_mem_expand (x := x) (properLiterals_of_mem hpatterns hds hpattern) hshows
      hdirectory (Glob.directoryOnly_notMem_pieces _)
  simp only [mem_filesAmong, mem_candidates hp hpatterns hds hne]
  constructor
  · rintro ⟨_, ⟨pattern, hpattern, hx⟩, hfile, hcanonical⟩
    obtain ⟨q, rfl, hleads, hfound⟩ := (hexpand hpattern _).1 ⟨hx, hfile⟩
    obtain ⟨m, hm, hisFile⟩ := (Option.any_eq_true _ _).1 hfound
    have hq := hleads.proper hshows (properLiterals_of_mem hpatterns hds hpattern)
    rw [hp.canonical? hq] at hcanonical
    exact ⟨pattern, hpattern, q, m, hleads, hm, hisFile, (Option.some.inj hcanonical).symm⟩
  · rintro ⟨pattern, hpattern, q, m, hleads, hm, hisFile, rfl⟩
    have hq := hleads.proper hshows (properLiterals_of_mem hpatterns hds hpattern)
    obtain ⟨hx, hfile⟩ := (hexpand hpattern _).2 ⟨q, rfl, hleads, by rwa [hm]⟩
    exact ⟨p.down q, ⟨pattern, hpattern, hx⟩, hfile, hp.canonical? hq⟩

section Short

variable (hshort : ∀ q m, n.descend? q = some m → (p.down q).text.utf8ByteSize < pathLimit)
  (hstart : ∀ pattern ∈ patterns, ShortStart p (ds ++ (Path.ofString pattern).parts))
include hshort hstart

/-- If no entry has too long a path, only the names in the patterns can be in the way of telling
what the paths lead to. -/
lemma pathObstacle?_of_mem_candidates {x : Path} (hx : x ∈ candidates t (p.down ds) patterns) :
    pathObstacle? t x = none := by
  obtain ⟨pattern, hpattern, hx⟩ := (mem_candidates hp hpatterns hds hne).1 hx
  have hliterals := properLiterals_of_mem hpatterns hds hpattern
  have hshows : t.Shows p n.descend? := by
    rw [← Node.viewAt_eq_descend? hshort]
    exact shows_of_resolve hp.resolve hp.plain
  obtain ⟨q, rfl, rfl | hsome⟩ := Glob.eq_fixedParts_or_isSome_of_mem_expand hliterals hshows
    n.full_descend? (Glob.directoryOnly_notMem_pieces _) hx
  -- a path that was not looked up may lead nowhere
  · obtain ⟨hnames, hpath⟩ := hstart pattern hpattern
    exact pathObstacle?_eq_none_iff.2 ⟨canTest_down hp.resolve hp.plain hnames hpath,
      fun _ => ⟨_, hp.canonical? (Glob.proper_fixedParts hliterals)⟩⟩
  · obtain ⟨m, hm⟩ := Option.isSome_iff_exists.1 hsome
    have hproper : Proper q := fun name hname => ((hp.plain q m hm).2 name hname).proper
    exact pathObstacle?_eq_none_iff.2 ⟨(hp.canTest_down_iff hm).2 (hshort q m hm),
      fun _ => ⟨_, hp.canonical? hproper⟩⟩

/-- Then nothing is in the way at all. -/
lemma unobstructed_down : Unobstructed t (p.down ds) patterns := by
  refine unobstructed_iff.2 ⟨fun pattern hpattern => ?_,
    fun x => pathObstacle?_of_mem_candidates hp hpatterns hds hne hshort hstart⟩
  rw [ofString_fullPattern hp (hpatterns pattern hpattern) (fun part hpart => (hds part hpart).1)
    (hne pattern hpattern), Glob.Pattern.isUnlistable, Glob.start_append, Bool.and_eq_false_iff]
  right
  have hnull := hasNull_of_isDirectory hp.isDirectory_eq
  rw [Path.hasNull] at hnull
  rw [Path.hasNull, Path.down, List.any_append, hnull, Bool.false_or, List.any_eq_false]
  intro name hname hcontains
  exact ((hstart pattern hpattern).1 name hname).nullFree (List.contains_iff_mem.1 hcontains)

end Short

end FurtherDown

/-! ## Patterns without wildcards -/

section Literal

variable {root x : Path}
  (hpattern : Glob.Pattern.ofString (fullPattern root pattern) = ⟨x.anchor, x.parts.map .literal⟩)
  (hdots : x.withoutDots = x) (hcontains : t.contains x = true)
include hpattern hdots hcontains

/-- A pattern without wildcards stands for itself. -/
lemma candidates_of_literal : candidates t root [pattern] = [x] := by
  have hexpand : Glob.Pattern.expand t ⟨x.anchor, x.parts.map .literal ++ []⟩ = [x] := by
    have hfixed : Glob.Pattern.fixedParts [] = [] := rfl
    rw [Glob.expand_of_not_isMagic t x rfl List.not_mem_nil, hfixed, Path.down_nil,
      if_pos hcontains]
  rw [List.append_nil] at hexpand
  rw [candidates, List.flatMap_singleton, matched, hpattern, hexpand, List.map_singleton, hdots]

/-- If it leads to a file, that file is collected. -/
lemma collect_of_literal (hdirectory : t.isDirectory root = true) (hfile : t.isFile x = true)
    (hcanonical : t.canonical? x = some f) : collect t root [pattern] = .ok [f] := by
  have hcandidates := candidates_of_literal hpattern hdots hcontains
  have hclear : Unobstructed t root [pattern] := by
    refine unobstructed_iff.2 ⟨List.forall_mem_singleton.2 ?_, ?_⟩
    · rw [hpattern, Glob.Pattern.isUnlistable]
      simp [Glob.Piece.isMagic]
    · rw [hcandidates]
      exact List.forall_mem_singleton.2
        (pathObstacle?_eq_none_iff.2 ⟨canTest_of_isFile hfile, fun _ => ⟨_, hcanonical⟩⟩)
  refine collect_of_mem_iff hdirectory hclear (List.cons_ne_nil _ _) (List.pairwise_singleton _ _)
    fun f => ?_
  simp [hcandidates, filesAmong, hfile, hcanonical]

end Literal

/-! ### Names behind the working directory -/

/-- What stands in a pattern behind names without characters that have a meaning there. -/
lemma ofString_fullPattern_last {names : List String} {last : String}
    (hnames : ∀ name ∈ names, Path.IsPart name ∧ Glob.Literal name) (hlast : Path.IsPart last) :
    Glob.Pattern.ofString
        (fullPattern ⟨.relative, []⟩ (Path.mk .relative (names ++ [last])).text) =
      ⟨.relative, names.map .literal ++ [.ofChars last.toList]⟩ := by
  have hparts : ∀ part ∈ names ++ [last], Path.IsPart part :=
    List.forall_mem_append.2 ⟨fun name hname => (hnames name hname).1, by simpa using hlast⟩
  have hne : names ++ [last] ≠ [] := List.concat_ne_nil _ _
  have hfull : fullPattern ⟨.relative, []⟩ (Path.mk .relative (names ++ [last])).text =
      (Path.mk .relative (names ++ [last])).text := by
    rw [fullPattern, Path.ofString_text hparts hne]
    rfl
  have hliteral : names.map (fun name => Glob.Piece.ofChars name.toList) = names.map .literal :=
    List.map_congr_left fun name hname => Glob.Piece.ofChars_of_literal (hnames name hname).2
  rw [hfull, Glob.Pattern.ofString_text hparts hne, List.map_append, hliteral]
  rfl

lemma withoutDots_name {name : String} (hname : IsName name) :
    (Path.mk .relative [name]).withoutDots = ⟨.relative, [name]⟩ :=
  withoutDots_down (p := ⟨.relative, []⟩) (q := [name]) (List.forall_mem_nil _)
    (List.forall_mem_singleton.2 hname.proper)

section Name

variable {name : String} (hname : IsName name)
  (hplain : ∀ c ∈ name.toList, c ∉ ['/', '*', '?', '['])
include hname hplain

lemma ofString_fullPattern_name :
    Glob.Pattern.ofString (fullPattern ⟨.relative, []⟩ name) = ⟨.relative, [.literal name]⟩ := by
  have hpart : Path.IsPart name :=
    Path.isPart_of_proper hname.proper fun hc => hplain '/' hc (by simp)
  have hliteral : Glob.Literal name := fun c hc hmem => hplain c hc (List.mem_cons_of_mem _ hmem)
  have htext : (Path.mk .relative ([] ++ [name])).text = name := by simp [Path.text, Anchor.text]
  have hlast := ofString_fullPattern_last (List.forall_mem_nil _) hpart
  rwa [htext, Glob.Piece.ofChars_of_literal hliteral] at hlast

variable (hcontains : t.contains ⟨.relative, [name]⟩ = true)
include hcontains

lemma candidates_name : candidates t ⟨.relative, []⟩ [name] = [⟨.relative, [name]⟩] :=
  candidates_of_literal (ofString_fullPattern_name hname hplain) (withoutDots_name hname) hcontains

/-- The file that a name leads to is found by that name. -/
lemma collect_name {entries : List (String × Node)}
    (hentries : t.root.descend? t.workingDirectory = some (.directory entries))
    (hfile : t.isFile ⟨.relative, [name]⟩ = true)
    (hcanonical : t.canonical? ⟨.relative, [name]⟩ = some f) :
    collect t ⟨.relative, []⟩ [name] = .ok [f] :=
  collect_of_literal (ofString_fullPattern_name hname hplain) (withoutDots_name hname) hcontains
    (isDirectory_here hentries) hfile hcanonical

end Name

end FileSet

end WorkflowLint
