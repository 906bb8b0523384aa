import WorkflowLint.Proofs.Collection

/-!
# Patterns are a set

What a run collects depends on which patterns there are, and on nothing else about them. Two lists
of patterns, one behind the other, collect what either of them collects; a pattern that is repeated
or comes at another place makes no difference. Several spellings of one file, such as links to it,
are one file in the end, since only the place counts to which a spelling leads.

There is one thing that one pattern can do to the others. If it cannot be told what one of its paths
leads to, because the path is too long, then collecting is broken off, and what the other patterns
stand for is lost. And there is one way for a file to be collected twice: a link whose own path is
too long is not seen, and is collected beside the file that it leads to.

## Main definitions

* `WorkflowLint.FileTree.IsResolved` — the absolute path of a file without any links on the way.

## Main results

* `WorkflowLint.FileTree.isResolved_of_canonical?` — where the paths of files lead.
* `WorkflowLint.FileSet.collect_eq_ok_iff` — when files are collected, and which.
* `WorkflowLint.FileSet.collect_append` — two lists of patterns collect what either collects.
* `WorkflowLint.FileSet.collect_hidden_link` — a link that is collected in place of its file.
* `WorkflowLint.FileSet.collect_append_breaks` — a pattern that takes the files of another along.
-/

set_option autoImplicit false

namespace WorkflowLint

namespace FileTree

/-- The path `f` is absolute and leads to a file: from the root down along its components, each of
which counts, and without a single link. -/
def IsResolved (t : FileTree) (f : Path) : Prop :=
  f.anchor = .root ∧ ∃ m, walk t.root false 0 [] f.parts = .ok (f.parts, m) ∧ m.isFile = true

/-- **Where the path of a file leads** is told by a path without links, if they are seen. -/
lemma isResolved_of_canonical? {t : FileTree} (hcwd : ∀ name ∈ t.workingDirectory, IsName name)
    {x f : Path} (hfile : t.isFile x = true) (hseen : ¬ t.HidesLink x)
    (hf : t.canonical? x = some f) : t.IsResolved f := by
  cases hresolve : t.resolve true x with
  | error e => simp [isFile, find?, hresolve, Except.toOption] at hfile
  | ok r =>
    obtain ⟨place, m⟩ := r
    have hm : m.isFile = true := by
      simpa [isFile, find?, hresolve, Except.toOption] using hfile
    have hlink : m.isLink = false := by
      cases m with
      | link target => cases hm
      | _ => rfl
    obtain rfl := Option.some.inj ((canonical?_of_resolve hresolve hseen).symm.trans hf)
    obtain ⟨hnames, hdown⟩ := resolve_sound hcwd hresolve
    exact ⟨rfl, m, walk_down hlink hnames hdown, hm⟩

end FileTree

namespace FileSet

open FileTree

variable {t : FileTree} {root : Path} {patterns p q : List String} {files : List Path} {f : Path}

lemma candidates_append (t : FileTree) (root : Path) (p q : List String) :
    candidates t root (p ++ q) = candidates t root p ++ candidates t root q :=
  List.flatMap_append

lemma mem_candidates_congr (h : ∀ pattern, pattern ∈ p ↔ pattern ∈ q) {x : Path} :
    x ∈ candidates t root p ↔ x ∈ candidates t root q := by
  simp only [candidates, List.mem_flatMap, h]

lemma unobstructed_append : Unobstructed t root (p ++ q) ↔
    Unobstructed t root p ∧ Unobstructed t root q := by
  simp only [Unobstructed, List.findSome?_eq_none_iff, List.forall_mem_append]

lemma mem_filesAmong_append : f ∈ filesAmong t (candidates t root (p ++ q)) ↔
    f ∈ filesAmong t (candidates t root p) ∨ f ∈ filesAmong t (candidates t root q) := by
  rw [candidates_append, filesAmong, List.filter_append, List.filterMap_append, List.mem_append]
  rfl

/-- **When files are collected, and which.** -/
lemma collect_eq_ok_iff : collect t root patterns = .ok files ↔
    t.isDirectory root = true ∧ Unobstructed t root patterns ∧ files ≠ [] ∧ Ordered files ∧
      ∀ f, f ∈ files ↔ f ∈ filesAmong t (candidates t root patterns) := by
  constructor
  · intro h
    have hunbroken : ∀ b, collect t root patterns ≠ .error (.breakdown b) := by
      rintro b hb
      cases h.symm.trans hb
    obtain ⟨-, hcollect⟩ | ⟨hdirectory, ⟨-, hcollect⟩ | ⟨found, hne, hordered, hmem, hcollect⟩⟩ :=
      collect_cases hunbroken
    · cases h.symm.trans hcollect
    · cases h.symm.trans hcollect
    · obtain rfl := Except.ok.inj (h.symm.trans hcollect)
      exact ⟨hdirectory, (collect_ne_breakdown_iff.1 hunbroken).2 hdirectory, hne, hordered, hmem⟩
  · rintro ⟨hdirectory, hclear, hne, hordered, hmem⟩
    exact collect_of_mem_iff hdirectory hclear hne hordered hmem

/-- Files are collected exactly if the patterns stand for one. -/
lemma exists_collect_iff : (∃ files, collect t root patterns = .ok files) ↔
    t.isDirectory root = true ∧ Unobstructed t root patterns ∧
      ∃ f, f ∈ filesAmong t (candidates t root patterns) := by
  constructor
  · rintro ⟨files, h⟩
    obtain ⟨hdirectory, hclear, hne, -, hmem⟩ := collect_eq_ok_iff.1 h
    obtain ⟨f, hf⟩ := List.exists_mem_of_ne_nil files hne
    exact ⟨hdirectory, hclear, f, (hmem f).1 hf⟩
  · rintro ⟨hdirectory, hclear, f, hf⟩
    obtain ⟨hordered, hmem⟩ := ordered_and_mem_mergeSort (t := t) (candidates t root patterns)
    exact ⟨_, collect_eq_ok_iff.2
      ⟨hdirectory, hclear, List.ne_nil_of_mem ((hmem f).2 hf), hordered, hmem⟩⟩

/-- What is collected is what is found, as long as nothing is in the way. -/
lemma mem_of_unobstructed (hdirectory : t.isDirectory root = true)
    (hclear : Unobstructed t root patterns) :
    f ∈ filesAmong t (candidates t root patterns) ↔
      ∃ files, collect t root patterns = .ok files ∧ f ∈ files := by
  constructor
  · intro hf
    obtain ⟨files, h⟩ := exists_collect_iff.2 ⟨hdirectory, hclear, f, hf⟩
    obtain ⟨-, -, -, -, hmem⟩ := collect_eq_ok_iff.1 h
    exact ⟨files, h, (hmem f).2 hf⟩
  · rintro ⟨files, h, hf⟩
    obtain ⟨-, -, -, -, hmem⟩ := collect_eq_ok_iff.1 h
    exact (hmem f).1 hf

lemma Ordered.nodup (h : Ordered files) : files.Nodup :=
  h.imp fun hlt heq => absurd (heq ▸ hlt) (lt_irrefl _)

/-- **Collecting is broken off for two lists of patterns as it is for the first list**, or as it is
for the second if there is nothing in the way of the first. -/
lemma collect_append_eq_breakdown_iff {b : Breakdown} :
    collect t root (p ++ q) = .error (.breakdown b) ↔
      collect t root p = .error (.breakdown b) ∨
        (∀ c, collect t root p ≠ .error (.breakdown c)) ∧
          collect t root q = .error (.breakdown b) := by
  simp only [collect_ne_breakdown_iff, collect_eq_breakdown_iff_findSome?, Unobstructed,
    List.findSome?_append, Option.or_eq_some_iff]
  cases hdirectory : t.isDirectory root with
  | false => cases t.canTest root <;> simp
  | true => simp [canTest_of_isDirectory hdirectory]

/-- **Two lists of patterns find something if one of them does**, and nothing breaks off. -/
lemma exists_collect_append_iff : (∃ files, collect t root (p ++ q) = .ok files) ↔
    t.isDirectory root = true ∧ (∀ b, collect t root p ≠ .error (.breakdown b)) ∧
      (∀ b, collect t root q ≠ .error (.breakdown b)) ∧
      ((∃ ps, collect t root p = .ok ps) ∨ ∃ qs, collect t root q = .ok qs) := by
  simp only [exists_collect_iff, collect_ne_breakdown_iff, unobstructed_append,
    mem_filesAmong_append,
    exists_or]
  constructor
  · rintro ⟨hdirectory, ⟨hp, hq⟩, hf⟩
    have hroot := canTest_of_isDirectory hdirectory
    exact ⟨hdirectory, ⟨hroot, fun _ => hp⟩, ⟨hroot, fun _ => hq⟩,
      hf.imp (fun hf => ⟨hdirectory, hp, hf⟩) fun hf => ⟨hdirectory, hq, hf⟩⟩
  · rintro ⟨hdirectory, ⟨-, hp⟩, ⟨-, hq⟩, hf⟩
    exact ⟨hdirectory, ⟨hp hdirectory, hq hdirectory⟩,
      hf.imp (fun hf => hf.2.2) fun hf => hf.2.2⟩

/-- **What two lists of patterns collect is what either of them collects.** -/
lemma mem_collect_append_iff (h : collect t root (p ++ q) = .ok files) : f ∈ files ↔
    (∃ ps, collect t root p = .ok ps ∧ f ∈ ps) ∨ ∃ qs, collect t root q = .ok qs ∧ f ∈ qs := by
  obtain ⟨hdirectory, hclear, -, -, hmem⟩ := collect_eq_ok_iff.1 h
  obtain ⟨hp, hq⟩ := unobstructed_append.1 hclear
  rw [hmem, mem_filesAmong_append, mem_of_unobstructed hdirectory hp,
    mem_of_unobstructed hdirectory hq]

/-- Patterns that are the same collect the same, whatever their order and however often each is
given. -/
lemma collect_congr (h : ∀ pattern, pattern ∈ p ↔ pattern ∈ q) :
    (∀ files, collect t root p = .ok files ↔ collect t root q = .ok files) ∧
      ((∃ b, collect t root p = .error (.breakdown b)) ↔
        ∃ b, collect t root q = .error (.breakdown b)) := by
  have hcandidates (x : Path) : x ∈ candidates t root p ↔ x ∈ candidates t root q :=
    mem_candidates_congr h
  have hclear : Unobstructed t root p ↔ Unobstructed t root q := by
    simp only [unobstructed_iff, h, hcandidates]
  constructor
  · intro files
    simp only [collect_eq_ok_iff, hclear, mem_filesAmong, hcandidates]
  · rw [← not_iff_not]
    simp only [not_exists, ← ne_eq, collect_ne_breakdown_iff, hclear]

/-- **What is collected depends on the set of the patterns.** For any tree, any root and any two
lists of patterns,

* the files that are collected are in the order of path components, each of them once, by the
  absolute paths of files that the patterns lead to; and these are paths without links, unless a
  link was not seen because its own path is too long;
* collecting for both lists is broken off exactly if it is for one of them, and by what is in the
  way of the first of them;
* it finds files exactly if the root is a directory, it is broken off for neither list, and one of
  the lists finds files;
* then it finds those that either list finds;
* two lists of the same patterns, in whatever order and however often, find the same files, and are
  broken off both or neither.

**Proof sketch.** The paths that two lists stand for are those of the first and those of the second,
and there is one way to list the files among them in order. -/
theorem collect_append (t : FileTree) (hcwd : ∀ name ∈ t.workingDirectory, IsName name)
    (root : Path) (p q : List String) :
    (∀ files, collect t root p = .ok files →
        Ordered files ∧ files.Nodup ∧ ∀ f ∈ files, f.anchor = .root ∧
          ∃ x ∈ candidates t root p, t.isFile x = true ∧ t.canonical? x = some f ∧
            (t.HidesLink x ∨ t.IsResolved f)) ∧
      (∀ b, collect t root (p ++ q) = .error (.breakdown b) ↔
        collect t root p = .error (.breakdown b) ∨
          (∀ c, collect t root p ≠ .error (.breakdown c)) ∧
            collect t root q = .error (.breakdown b)) ∧
      ((∃ files, collect t root (p ++ q) = .ok files) ↔
        t.isDirectory root = true ∧ (∀ b, collect t root p ≠ .error (.breakdown b)) ∧
          (∀ b, collect t root q ≠ .error (.breakdown b)) ∧
          ((∃ ps, collect t root p = .ok ps) ∨ ∃ qs, collect t root q = .ok qs)) ∧
      (∀ files, collect t root (p ++ q) = .ok files → ∀ f, f ∈ files ↔
        (∃ ps, collect t root p = .ok ps ∧ f ∈ ps) ∨
          ∃ qs, collect t root q = .ok qs ∧ f ∈ qs) ∧
      ((∀ pattern, pattern ∈ p ↔ pattern ∈ q) →
        (∀ files, collect t root p = .ok files ↔ collect t root q = .ok files) ∧
          ((∃ b, collect t root p = .error (.breakdown b)) ↔
            ∃ b, collect t root q = .error (.breakdown b))) := by
  refine ⟨fun files h => ?_, fun b => collect_append_eq_breakdown_iff, exists_collect_append_iff,
    fun files h f => mem_collect_append_iff h, collect_congr⟩
  obtain ⟨-, -, -, hordered, hmem⟩ := collect_eq_ok_iff.1 h
  refine ⟨hordered, hordered.nodup, fun f hf => ?_⟩
  have hfound := (hmem f).1 hf
  obtain ⟨x, hx, hfile, hcanonical⟩ := mem_filesAmong.1 hfound
  refine ⟨anchor_of_mem_filesAmong hfound, x, hx, hfile, hcanonical, ?_⟩
  exact or_iff_not_imp_left.2 fun hseen => isResolved_of_canonical? hcwd hfile hseen hcanonical

/-! ## A script and a link to it -/

/-- A script in the working directory is collected by its name. -/
lemma collect_script {t : FileTree} {entries : List (String × Node)} {bytes : List UInt8}
    (hentries : t.root.descend? t.workingDirectory = some (.directory entries))
    (hscript : entries.lookup "a.jls" = some (.file bytes)) :
    collect t ⟨.relative, []⟩ ["a.jls"] = .ok [⟨.root, t.workingDirectory ++ ["a.jls"]⟩] := by
  have hresolve : ∀ follow, t.resolve follow ⟨.relative, ["a.jls"]⟩ = _ :=
    fun _ => resolve_file hentries (by decide) hscript
  have htarget : t.target? ⟨.relative, ["a.jls"]⟩ = none := by
    rw [target?, hresolve]
  refine collect_name (by decide) (by simp) ?_ hentries ?_ (canonical?_name (by decide) htarget)
  · simp [contains, hresolve, Except.toOption]
  · simp [FileTree.isFile, find?, hresolve, Except.toOption, Node.isFile]

/-- A script and a link to it, in the working directory. -/
def linked : FileTree := ⟨.directory [("a.jls", .file []), ("b.jls", .link "a.jls")], []⟩

/-- The name of the script is no absolute path. -/
lemma startsWith_script : "a.jls".startsWith "/" = false := by
  decide +kernel

lemma targetParts_script : targetParts "a.jls" = ["a.jls"] := by
  decide

lemma spells_linked : linked.Spells ⟨.relative, []⟩ [] :=
  spells_start (p := ⟨.relative, []⟩) ⟨_, rfl⟩

/-- The link is read as the name of the script. -/
lemma resolve_link : linked.resolve true ⟨.relative, ["b.jls"]⟩ = .ok (["a.jls"], .file []) := by
  rw [resolve_eq_walk rfl (by decide)]
  refine (walk_link rfl (by decide) rfl (.inr rfl)).trans ?_
  rw [startsWith_script, targetParts_script]
  exact walk_down rfl (by decide) rfl

lemma contains_link : linked.contains ⟨.relative, ["b.jls"]⟩ = true := by
  have hwalk : walk linked.root false linkLimit [] ["b.jls"] = .ok (["b.jls"], .link "a.jls") :=
    walk_last_link rfl (by decide) rfl
  rw [contains, resolve_eq_walk rfl (by decide)]
  exact congrArg (fun r => r.toOption.isSome) hwalk

/-- The link is replaced by the name of the script. -/
lemma canonical?_link : linked.canonical? ⟨.relative, ["b.jls"]⟩ = some ⟨.root, ["a.jls"]⟩ := by
  have hlink : linked.target? ⟨.relative, ["b.jls"]⟩ = some "a.jls" :=
    spells_linked.target?_eq_some rfl (by decide) rfl (by decide)
  have hscript : linked.target? ⟨.relative, ["a.jls"]⟩ = none :=
    spells_linked.target?_eq_none rfl (by decide) rfl rfl
  have hkeep : linked.withoutLinks 999 ⟨.relative, []⟩ ["a.jls"] = some ⟨.relative, ["a.jls"]⟩ := by
    rw [withoutLinks_keep (by decide) hscript, withoutLinks_nil]
    rfl
  have hreplace : linked.withoutLinks (999 + 1) ⟨.relative, []⟩ ["b.jls"] =
      some ⟨.relative, ["a.jls"]⟩ := by
    rw [withoutLinks_link (by decide) hlink, targetStart, startsWith_script, targetParts_script]
    exact (congrArg (Option.bind · _) hkeep).trans withoutLinks_nil
  exact canonical?_of_withoutLinks (x := ⟨.relative, ["b.jls"]⟩) hreplace

lemma collect_linked {name : String} (h : name = "a.jls" ∨ name = "b.jls") :
    collect linked ⟨.relative, []⟩ [name] = .ok [⟨.root, ["a.jls"]⟩] := by
  obtain rfl | rfl := h
  · exact collect_script rfl rfl
  · have hfile : linked.isFile ⟨.relative, ["b.jls"]⟩ = true := by
      rw [FileTree.isFile, find?, resolve_link]
      rfl
    exact collect_name (by decide) (by simp) contains_link rfl hfile canonical?_link

/-- **A link adds nothing.** The script and the link to it are two patterns and one file. -/
theorem collect_append_link :
    (∀ name ∈ linked.workingDirectory, IsName name) ∧
      collect linked ⟨.relative, []⟩ (["b.jls"] ++ ["a.jls"]) = .ok [⟨.root, ["a.jls"]⟩] := by
  have hcwd : ∀ name ∈ linked.workingDirectory, IsName name := nofun
  have hscript := collect_linked (.inl rfl)
  have hlink := collect_linked (.inr rfl)
  have hdirectory : linked.isDirectory ⟨.relative, []⟩ = true := (collect_eq_ok_iff.1 hscript).1
  obtain ⟨-, -, hexists, hunion, -⟩ :=
    collect_append linked hcwd ⟨.relative, []⟩ ["b.jls"] ["a.jls"]
  obtain ⟨files, hfiles⟩ :=
    hexists.2 ⟨hdirectory, by simp [hlink], by simp [hscript], .inl ⟨_, hlink⟩⟩
  have hmem : ∀ f, f ∈ files ↔ f ∈ [Path.mk .root ["a.jls"]] := by
    intro f
    rw [hunion files hfiles]
    simp [hscript, hlink]
  have hnodup : files.Nodup := (collect_eq_ok_iff.1 hfiles).2.2.2.1.nodup
  have hperm := (List.perm_ext_iff_of_nodup hnodup (List.nodup_singleton _)).2 hmem
  exact ⟨hcwd, by rw [hfiles, List.perm_singleton.1 hperm]⟩

/-! ## A link that is not seen -/

/-- The text of an absolute path starts with a slash. -/
lemma startsWith_text {parts : List String} (hne : parts ≠ []) :
    (Path.mk .root parts).text.startsWith "/" = true := by
  rw [Path.text_of_ne_nil hne]
  simp [Anchor.text]

/-- The target of a link to an absolute path, component by component. -/
lemma targetParts_text {parts : List String} (hparts : ∀ part ∈ parts, Path.IsPart part)
    (hne : parts ≠ []) : targetParts (Path.mk .root parts).text = "" :: parts := by
  have htext : (Path.mk .root parts).text.toList = [] ++ '/' :: ("/".intercalate parts).toList := by
    rw [Path.text_of_ne_nil hne, String.toList_append]
    simp [Anchor.text]
  rw [targetParts, htext, Path.splitSlash_append_slash List.not_mem_nil,
    Path.splitSlash_intercalate hne fun part hpart => (hparts part hpart).2.2]
  simp [Function.comp_def]

/-- The working directory of `t` has a path of names. In it there are a script, a link to it, and a
link `back` to the directory itself, by its absolute path. Behind that path, the link to the script
is not seen. -/
structure Hides (t : FileTree) (name : String) : Prop where
  isName : ∀ part ∈ name :: t.workingDirectory, IsName part
  isPart : ∀ part ∈ name :: t.workingDirectory, Path.IsPart part
  literal : Glob.Literal name
  ne_nil : t.workingDirectory ≠ []
  entries : ∃ entries bytes,
    t.root.descend? t.workingDirectory = some (.directory entries) ∧
      entries.lookup "a.jls" = some (.file bytes) ∧ entries.lookup name = some (.link "a.jls") ∧
      entries.lookup "back" = some (.link (Path.mk .root t.workingDirectory).text)
  long : pathLimit ≤ (Path.mk .root (t.workingDirectory ++ [name])).text.utf8ByteSize

section Hides

variable {name : String} (h : Hides t name)
include h

lemma Hides.isName_of_mem : ∀ part ∈ t.workingDirectory, IsName part :=
  fun part hpart => h.isName part (List.mem_cons_of_mem _ hpart)

lemma Hides.targetParts_back : targetParts (Path.mk .root t.workingDirectory).text =
    "" :: t.workingDirectory :=
  targetParts_text (fun part hpart => h.isPart part (List.mem_cons_of_mem _ hpart)) h.ne_nil

/-- The link `back` leads back, whatever follows. -/
lemma Hides.walk_back {follow : Bool} {links : Nat} {last : String} :
    walk t.root follow (links + 1) t.workingDirectory ["back", last] =
      walk t.root follow links t.workingDirectory [last] := by
  obtain ⟨entries, bytes, hentries, -, -, hback⟩ := h.entries
  obtain ⟨top, htop⟩ : ∃ top, t.root.descend? [] = some (.directory top) :=
    Node.exists_directory_take hentries 0
  rw [walk_link hentries (by decide) hback (.inl (List.cons_ne_nil _ _)), startsWith_text h.ne_nil,
    if_pos rfl, h.targetParts_back, List.cons_append, walk, htop]
  exact walk_append (n := .directory entries) rfl h.isName_of_mem hentries [last]

lemma Hides.resolve_back (follow : Bool) : t.resolve follow ⟨.relative, ["back", name]⟩ =
    walk t.root follow 39 t.workingDirectory [name] := by
  have hname : IsName name := h.isName name List.mem_cons_self
  have hsize : (Path.mk .relative ["back", name]).text.utf8ByteSize < pathLimit := by
    have hsum : (Path.mk .relative ["back", name]).text.utf8ByteSize + 1 = _ :=
      Path.utf8ByteSize_text_relative (List.cons_ne_nil _ _)
    have hback : "back".utf8ByteSize = 4 := by decide
    have hshort : name.utf8ByteSize ≤ 255 := hname.short
    have hlimit : pathLimit = 4096 := rfl
    simp [hback] at hsum
    omega
  have hnames : ∀ part ∈ ["back", name], IsName part :=
    List.forall_mem_cons.2 ⟨by decide, by simpa using hname⟩
  rw [resolve_eq_walk (hasNull_of_isName hnames) hsize]
  exact h.walk_back

lemma Hides.isFile_back : t.isFile ⟨.relative, ["back", name]⟩ = true := by
  obtain ⟨entries, bytes, hentries, hscript, hlink, -⟩ := h.entries
  have hplace : t.root.descend? (t.workingDirectory ++ ["a.jls"]) = some (.file bytes) := by
    rw [Node.descend?_append, hentries]
    simp [Node.child?, hscript]
  rw [FileTree.isFile, find?, h.resolve_back true,
    walk_link hentries (h.isName name List.mem_cons_self) hlink (.inr rfl), startsWith_script,
    targetParts_script]
  rw [if_neg Bool.false_ne_true, List.append_nil, walk_down rfl (by decide) hplace]
  rfl

lemma Hides.contains_back : t.contains ⟨.relative, ["back", name]⟩ = true := by
  obtain ⟨entries, bytes, hentries, hscript, hlink, -⟩ := h.entries
  rw [contains, h.resolve_back false,
    walk_last_link hentries (h.isName name List.mem_cons_self) hlink]
  rfl

/-- **The link to the script is kept** where its absolute path is too long. -/
lemma Hides.canonical?_back : t.canonical? ⟨.relative, ["back", name]⟩ =
    some ⟨.root, t.workingDirectory ++ [name]⟩ := by
  obtain ⟨entries, bytes, hentries, hscript, hlink, hback⟩ := h.entries
  have hproper : name ∉ ["", ".", ".."] := (h.isName name List.mem_cons_self).proper
  have hspells : t.Spells ⟨.relative, []⟩ t.workingDirectory :=
    spells_start (p := ⟨.relative, []⟩) ⟨_, hentries⟩
  have hseen : t.target? ⟨.relative, ["back"]⟩ = _ :=
    hspells.target?_eq_some hentries (by decide) hback (by decide)
  have hkept : t.target? ⟨.root, t.workingDirectory ++ [name]⟩ = none :=
    target?_of_pathLimit_le h.long
  have hdown : t.withoutLinks 999 ⟨.root, []⟩ ("" :: t.workingDirectory) =
      some ⟨.root, t.workingDirectory⟩ := by
    rw [withoutLinks_dot (by decide)]
    refine withoutLinks_down (fun part hpart => (h.isName_of_mem part hpart).proper) ?_
    intro more last hfront
    obtain ⟨top, htop⟩ := Node.exists_directory_take hentries (more ++ [last]).length
    rw [← List.prefix_iff_eq_take.1 hfront] at htop
    exact target?_of_descend? (fun part hpart => h.isName_of_mem part (hfront.subset hpart)) htop
      rfl
  have hreplace : t.withoutLinks (999 + 1) ⟨.relative, []⟩ ["back", name] =
      some ⟨.root, t.workingDirectory ++ [name]⟩ := by
    rw [withoutLinks_link (by decide) hseen, targetStart, if_pos (startsWith_text h.ne_nil),
      h.targetParts_back, hdown, Option.bind_some, withoutLinks_keep hproper hkept,
      withoutLinks_nil]
    rfl
  have hback : ".." ∉ t.workingDirectory ++ [name] := fun hmem =>
    (h.isName ".." (by simpa [or_comm] using hmem)).proper (by simp)
  have hcanonical := canonical?_of_withoutLinks (x := ⟨.relative, ["back", name]⟩) hreplace
  exact hcanonical.trans (congrArg some (absolute_root hback))

/-- The link is collected as if it were a file. -/
lemma Hides.collect_back : collect t ⟨.relative, []⟩ [(Path.mk .relative ["back", name]).text] =
    .ok [⟨.root, t.workingDirectory ++ [name]⟩] := by
  obtain ⟨entries, bytes, hentries, -⟩ := h.entries
  have hpattern : Glob.Pattern.ofString
      (fullPattern ⟨.relative, []⟩ (Path.mk .relative ["back", name]).text) =
        ⟨.relative, ["back", name].map .literal⟩ := by
    have hlast := @ofString_fullPattern_last ["back"] name (by decide)
      (h.isPart name List.mem_cons_self)
    rwa [Glob.Piece.ofChars_of_literal h.literal] at hlast
  have hproper : Proper ["back", name] :=
    List.forall_mem_cons.2 ⟨by decide, by simpa using (h.isName name List.mem_cons_self).proper⟩
  have hdots : (Path.mk .relative ["back", name]).withoutDots = ⟨.relative, ["back", name]⟩ :=
    withoutDots_down (p := ⟨.relative, []⟩) (List.forall_mem_nil _) hproper
  exact collect_of_literal (x := ⟨.relative, ["back", name]⟩) hpattern hdots h.contains_back
    (isDirectory_here hentries) h.isFile_back h.canonical?_back

/-- What is collected is no path without links. -/
lemma Hides.not_isResolved : ¬ t.IsResolved ⟨.root, t.workingDirectory ++ [name]⟩ := by
  obtain ⟨entries, bytes, hentries, -, hlink, -⟩ := h.entries
  rintro ⟨-, m, hwalk, hfile⟩
  have hdown : walk t.root false 0 [] (t.workingDirectory ++ [name]) =
      walk t.root false 0 t.workingDirectory [name] :=
    walk_append (n := .directory entries) rfl h.isName_of_mem hentries [name]
  rw [hdown, walk_last_link hentries (h.isName name List.mem_cons_self) hlink] at hwalk
  obtain ⟨-, rfl⟩ := Prod.mk.inj (Except.ok.inj hwalk)
  cases hfile

end Hides

/-- There are names of any length, up to the limit, that have no meaning of their own. -/
lemma exists_name {k : Nat} (hk : 2 < k) (hlimit : k ≤ nameLimit) :
    ∃ name, (IsName name ∧ Path.IsPart name ∧ Glob.Literal name) ∧ name.utf8ByteSize = k := by
  have hsize : 'x'.utf8Size = 1 := rfl
  refine ⟨String.ofList (List.replicate k 'x'), ⟨isName_replicate hk ?_ (by decide),
    Path.isPart_replicate hk (by decide), Glob.literal_replicate (by decide)⟩, ?_⟩
  · rwa [hsize, Nat.mul_one]
  · rw [Path.utf8ByteSize_replicate, hsize, Nat.mul_one]

/-- A chain of directories at whose end there is a link that is not seen from the root. -/
lemma hides_chain {part name : String} {depth : Nat} {entries : List (String × Node)}
    (hname : IsName name ∧ Path.IsPart name) (hpart : IsName part ∧ Path.IsPart part)
    (hliteral : Glob.Literal name) (hdepth : 0 < depth)
    (hscript : entries.lookup "a.jls" = some (.file []))
    (hlink : entries.lookup name = some (.link "a.jls"))
    (hback : entries.lookup "back" = some (.link (Path.mk .root (List.replicate depth part)).text))
    (hlong : pathLimit ≤ depth * (part.utf8ByteSize + 1) + (name.utf8ByteSize + 1)) :
    Hides (chain part depth entries) name where
  isName := List.forall_mem_cons.2 ⟨hname.1, fun other hother =>
    List.eq_of_mem_replicate hother ▸ hpart.1⟩
  isPart := List.forall_mem_cons.2 ⟨hname.2, fun other hother =>
    List.eq_of_mem_replicate hother ▸ hpart.2⟩
  literal := hliteral
  ne_nil := by simpa [chain] using hdepth.ne'
  entries := ⟨entries, [], Node.descend?_foldr _ _, hscript, hlink, hback⟩
  long := by rwa [utf8ByteSize_chain]

/-- **A link is collected in place of its file** if its absolute path is too long. -/
theorem collect_hidden_link : ∃ (t : FileTree) (pattern : String) (f : Path),
    (∀ name ∈ t.workingDirectory, IsName name) ∧
      collect t ⟨.relative, []⟩ [pattern] = .ok [f] ∧ ¬ t.IsResolved f := by
  obtain ⟨part, hpart, hpartSize⟩ := exists_name (k := 250) (by decide) (by decide)
  obtain ⟨name, hname, hnameSize⟩ := exists_name (k := 100) (by decide) (by decide)
  have hscript : name ≠ "a.jls" := by
    rintro rfl
    cases hnameSize
  have hback : "back" ≠ name := by
    rintro rfl
    cases hnameSize
  have hhides : Hides (chain part 16 [("a.jls", .file []), (name, .link "a.jls"),
      ("back", .link (Path.mk .root (List.replicate 16 part)).text)]) name := by
    refine hides_chain ⟨hname.1, hname.2.1⟩ ⟨hpart.1, hpart.2.1⟩ hname.2.2 (by decide) rfl
      ?_ ?_ (by rw [hpartSize, hnameSize]; decide)
    · simp [List.lookup_cons, beq_false_of_ne hscript]
    · simp [List.lookup_cons, beq_false_of_ne hback]
  exact ⟨_, _, _, hhides.isName_of_mem, hhides.collect_back, hhides.not_isResolved⟩

/-! ## A path that is too long -/

/-- A wildcard at the end stands for the entries that it fits, of whatever kind they are. -/
lemma mem_expand_wildcard {p : Path} {w : Glob.Wildcard} {name : String} (hname : name ∈ t.names p)
    (haccepts : w.accepts name.toList = true) :
    p.extend name ∈ Glob.Pattern.expand t ⟨p.anchor, p.parts.map .literal ++ [.wildcard w]⟩ := by
  have hstep : p.extend name ∈ Glob.Pattern.step t true p (.wildcard w) :=
    List.mem_filterMap.2 ⟨name, List.mem_filter.2 ⟨hname, haccepts⟩, rfl⟩
  have hfixed : Glob.Pattern.fixedParts [.wildcard w] = [] := rfl
  rw [Glob.expand_of_isMagic t p rfl, List.mem_filter, hfixed, Path.down_nil]
  exact ⟨List.mem_flatMap.2 ⟨_, hstep, List.mem_singleton.2 rfl⟩, by simp [Path.extend]⟩

/-- A script, and a link to the directory that they are in. -/
def looped (name : String) : FileTree := ⟨.directory [("a.jls", .file []), (name, .link ".")], []⟩

section Looped

variable {name : String} (hname : IsName name) (hne : name ≠ "a.jls") {k : Nat}
include hname hne

/-- The link leads back to where it is, again and again. -/
lemma walk_looped (links : Nat) : walk (looped name).root true (links + k) [] (.replicate k name) =
    .ok ([], (looped name).root) := by
  have hlink : List.lookup name [("a.jls", Node.file []), (name, Node.link ".")] =
      some (.link ".") := by
    simp [List.lookup_cons, beq_false_of_ne hne]
  have hstart : ".".startsWith "/" = false := by decide +kernel
  have hparts : targetParts "." = ["."] := by decide
  induction k with
  | zero => exact walk_nil rfl
  | succ k ih =>
    rw [List.replicate_succ, ← Nat.add_assoc]
    refine (walk_link rfl hname hlink (.inr rfl)).trans ?_
    rw [hstart, hparts, List.singleton_append, walk]
    exact ih

variable (hpart : Path.IsPart name) (hliteral : Glob.Literal name)
include hpart hliteral

/-- The script is listed in the directory that the links lead to, however long its own path is. -/
lemma mem_candidates_looped (hk : k ≤ linkLimit)
    (hshort : (Path.mk .relative (List.replicate k name)).text.utf8ByteSize < pathLimit) :
    (⟨.relative, List.replicate k name ++ ["a.jls"]⟩ : Path) ∈ candidates (looped name)
      ⟨.relative, []⟩ [(Path.mk .relative (List.replicate k name ++ ["*.jls"])).text] := by
  let p : Path := ⟨.relative, List.replicate k name⟩
  have hall : ∀ part ∈ p.parts, part = name := fun part => List.eq_of_mem_replicate
  have hresolve : (looped name).resolve true p = .ok ([], (looped name).root) := by
    have hnull : p.hasNull = false := hasNull_of_isName fun part hmem => hall part hmem ▸ hname
    rw [resolve_eq_walk hnull hshort, ← Nat.sub_add_cancel hk]
    exact walk_looped hname hne _
  have hlisted : "a.jls" ∈ (looped name).names p := by
    rw [FileTree.names, find?, hresolve]
    exact List.mem_cons_self
  have hpiece : Glob.Piece.ofChars "*.jls".toList = .wildcard (.ofChars "*.jls".toList) := by
    decide +kernel
  rw [candidates, List.flatMap_singleton, List.mem_map, matched,
    ofString_fullPattern_last (fun part hmem => hall part hmem ▸ ⟨hpart, hliteral⟩) (by decide),
    hpiece]
  exact ⟨p.down ["a.jls"], mem_expand_wildcard hlisted (by decide +kernel),
    withoutDots_down (fun part hmem => hall part hmem ▸ hpart) (by simp [Proper])⟩

/-- It cannot be told what it is if that path is too long. -/
lemma not_unobstructed_looped (hk : k ≤ linkLimit)
    (hshort : (Path.mk .relative (List.replicate k name)).text.utf8ByteSize < pathLimit)
    (hlong :
      pathLimit ≤ (Path.mk .relative (List.replicate k name ++ ["a.jls"])).text.utf8ByteSize) :
    ¬ Unobstructed (looped name) ⟨.relative, []⟩
      [(Path.mk .relative (List.replicate k name ++ ["*.jls"])).text] := by
  intro hclear
  have hcandidate := mem_candidates_looped hname hne hpart hliteral hk hshort
  obtain ⟨htest, -⟩ := pathObstacle?_eq_none_iff.1 ((unobstructed_iff.1 hclear).2 _ hcandidate)
  have hnull : (Path.mk .relative (List.replicate k name ++ ["a.jls"])).hasNull = false := by
    refine hasNull_of_isName (List.forall_mem_append.2 ⟨fun part hmem => ?_, by decide⟩)
    rwa [List.eq_of_mem_replicate hmem]
  rw [canTest, resolve, hnull, if_neg Bool.false_ne_true, if_pos hlong] at htest
  cases htest

end Looped

/-- **A pattern can take the files of another along**: behind a script that is found, a pattern that
finds the same script by a path that is too long, because it leads in circles. -/
theorem collect_append_breaks :
    ∃ (t : FileTree) (root : Path) (p q : List String), t.isDirectory root = true ∧
      (∃ files, collect t root p = .ok files) ∧ ∀ files, collect t root (p ++ q) ≠ .ok files := by
  obtain ⟨name, ⟨hname, hpart, hliteral⟩, hsize⟩ := exists_name (k := 255) (by decide) (by decide)
  have hne : name ≠ "a.jls" := by
    rintro rfl
    cases hsize
  have hlimit : pathLimit = 4096 := rfl
  have hscript : collect (looped name) ⟨.relative, []⟩ ["a.jls"] = _ := collect_script rfl rfl
  refine ⟨looped name, ⟨.relative, []⟩, ["a.jls"],
    [(Path.mk .relative (List.replicate 16 name ++ ["*.jls"])).text],
    (collect_eq_ok_iff.1 hscript).1, ⟨_, hscript⟩, fun files h => ?_⟩
  obtain ⟨-, hclear, -⟩ := collect_eq_ok_iff.1 h
  refine not_unobstructed_looped hname hne hpart hliteral (by decide) ?_ ?_
    (unobstructed_append.1 hclear).2
  · have hsum : (Path.mk .relative (List.replicate 16 name)).text.utf8ByteSize + 1 = _ :=
      Path.utf8ByteSize_text_relative (List.cons_ne_nil _ _)
    simp only [List.map_replicate, List.sum_replicate_nat, hsize] at hsum
    omega
  · have hsum :
        (Path.mk .relative (List.replicate 16 name ++ ["a.jls"])).text.utf8ByteSize + 1 = _ :=
      Path.utf8ByteSize_text_relative (List.concat_ne_nil _ _)
    simp only [List.map_append, List.map_replicate, List.map_singleton, List.sum_append,
      List.sum_replicate_nat, List.sum_singleton, hsize] at hsum
    omega

end FileSet

end WorkflowLint
