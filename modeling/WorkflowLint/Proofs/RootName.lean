import WorkflowLint.Proofs.Collection

/-!
# The name of the root

A pattern is joined to the path of the root, and the text of what has been joined is expanded. So
the name of the root is read as a pattern as well. Whether that does any harm depends on the name
alone. If the name, read as a pattern, fits itself, then the files are those that the patterns stand
for in the directory, whatever it is called. If it does not, there are none: a directory called
`[x]` is taken for one called `x`. Two stars are a case of their own, since they stand for any
number of directories.

## Main definitions

* `WorkflowLint.FileSet.NamesItself` — a name that fits itself if it is read as a pattern.
* `WorkflowLint.FileSet.Alone` — a directory that is alone in its parent.
* `WorkflowLint.FileSet.Selected` — the files that patterns stand for, wherever their directory is.

## Main results

* `WorkflowLint.FileSet.leads_name_iff` — what a pattern behind the name of the root leads to.
* `WorkflowLint.FileSet.Alone.collect_cases` — the outcomes of collecting files from such a root.
* `WorkflowLint.FileSet.collect_root_name` — names that fit themselves make no difference.
* `WorkflowLint.FileSet.collect_bracketed_root` — other names do.
-/

set_option autoImplicit false

namespace WorkflowLint

namespace Glob

/-- Does a component fit a name? -/
def Piece.fits : Piece → String → Bool
  | .literal text, name => text == name
  | .wildcard w, name => w.accepts name.toList
  | .anyDepth, _ => false
  | .directoryOnly, _ => false

/-- Only two stars stand for any number of directories. -/
lemma Piece.ofChars_eq_anyDepth_iff {name : String} :
    ofChars name.toList = .anyDepth ↔ name = "**" := by
  have hstars : name.toList = ['*', '*'] ↔ name = "**" := by simp [← String.toList_inj]
  rw [← hstars, ofChars]
  split_ifs <;> simp_all

/-- In a directory with one directory in it, a component that stands for one name leads there if it
fits, and nowhere else. -/
lemma steps_iff_of_singleton {name : String} {content : Node} {piece : Piece} {isLast : Bool}
    {d : List String} (hdirectory : content.isDirectory = true) (hdepth : piece ≠ .anyDepth)
    (honly : piece ≠ .directoryOnly) :
    Steps (Node.directory [(name, content)]).descend? isLast piece d ↔
      piece.fits name = true ∧ d = [name] := by
  cases piece with
  | literal text =>
    rw [Steps, Piece.fits, beq_iff_eq]
    constructor
    · rintro ⟨rfl, hsome⟩
      obtain ⟨m, hm⟩ := Option.isSome_iff_exists.1 hsome
      obtain ⟨hnil, -⟩ | ⟨r, hr, -⟩ := Node.descend?_singleton.1 hm
      · cases hnil
      · exact ⟨(List.cons.inj hr).1, congrArg ([·]) (List.cons.inj hr).1⟩
    · rintro ⟨rfl, rfl⟩
      exact ⟨rfl, by simp [Node.child?]⟩
  | wildcard w =>
    have hgo : View.listsDirectory (Node.directory [(name, content)]).descend? name = true := by
      simpa [View.listsDirectory, Node.child?] using hdirectory
    constructor
    · rintro ⟨other, hother, rfl, haccepts, -⟩
      obtain rfl : other = name := List.mem_singleton.1 hother
      exact ⟨haccepts, rfl⟩
    · rintro ⟨haccepts, rfl⟩
      exact ⟨name, List.mem_singleton.2 rfl, rfl, haccepts, .inr hgo⟩
  | anyDepth => exact absurd rfl hdepth
  | directoryOnly => exact absurd rfl honly

end Glob

namespace FileSet

open FileTree Glob

/-- The name, read as a pattern, fits itself. -/
def NamesItself (name : String) : Prop := (Piece.ofChars name.toList).fits name = true

instance (name : String) : Decidable (NamesItself name) := inferInstanceAs (Decidable (_ = true))

lemma NamesItself.ne {name : String} (h : NamesItself name) : name ≠ "**" := by
  rintro rfl
  exact absurd h (by decide)

/-- A name without characters that have a meaning in patterns fits itself. -/
lemma namesItself_of_literal {name : String} (h : Literal name) : NamesItself name := by
  rw [NamesItself, Piece.ofChars_of_literal h, Piece.fits, beq_iff_eq]

variable {t t' : FileTree} {base base' : Path} {place place' : List String} {d d' : String}
  {content : Node} {patterns : List String} {f : Path} {q : List String}
  {qs : List (List String)}

/-- **What a pattern behind a name leads to**, in a directory with one directory of that name in it.
The name has to fit itself, and then the pattern leads through the directory, whatever its name. -/
lemma leads_name_iff (hdirectory : content.isDirectory = true) (hd : d ≠ "**")
    {rest : List Piece} :
    Leads (Node.directory [(d, content)]).descend? (.ofChars d.toList :: rest) q ↔
      NamesItself d ∧ ∃ r, q = d :: r ∧ Leads content.descend? rest r := by
  have hunder : View.under (Node.directory [(d, content)]).descend? [d] = content.descend? := by
    funext q
    exact Node.descend?_cons_singleton d content q
  have hsteps : ∀ {isLast : Bool} {e : List String},
      Steps (Node.directory [(d, content)]).descend? isLast (.ofChars d.toList) e ↔
        NamesItself d ∧ e = [d] :=
    steps_iff_of_singleton hdirectory (Piece.ofChars_eq_anyDepth_iff.not.2 hd)
      (Piece.ofChars_ne_directoryOnly d.toList)
  constructor
  · rintro ⟨e, r, rfl, he, hr⟩
    obtain ⟨hitself, rfl⟩ := hsteps.1 he
    rw [hunder] at hr
    exact ⟨hitself, r, rfl, hr⟩
  · rintro ⟨hitself, r, rfl, hr⟩
    refine ⟨[d], r, rfl, hsteps.2 ⟨hitself, rfl⟩, ?_⟩
    rw [hunder]
    exact hr

/-! ## Files below a directory -/

/-- The files at the places `qs` below the directory at `place`. -/
def filesBelow (place : List String) (qs : List (List String)) : List Path :=
  qs.map fun q => ⟨.root, place ++ q⟩

@[simp] lemma mem_filesBelow : ⟨.root, place ++ q⟩ ∈ filesBelow place qs ↔ q ∈ qs := by
  simp [filesBelow]

/-- The order of files below a directory does not depend on where it is. -/
lemma ordered_filesBelow : Ordered (filesBelow place qs) ↔ qs.Pairwise (· < ·) := by
  have hlt : ∀ {q r : List String}, place ++ q < place ++ r ↔ q < r := by
    intro q r
    induction place with
    | nil => rfl
    | cons name place ih => simp [ih]
  rw [Ordered, filesBelow, List.pairwise_map]
  simp only [hlt]

lemma exists_filesBelow {files : List Path} (h : ∀ f ∈ files, ∃ q, f = ⟨.root, place ++ q⟩) :
    ∃ qs, files = filesBelow place qs := by
  induction files with
  | nil => exact ⟨[], rfl⟩
  | cons f files ih =>
    obtain ⟨⟨q, rfl⟩, hrest⟩ := List.forall_mem_cons.1 h
    obtain ⟨qs, rfl⟩ := ih hrest
    exact ⟨q :: qs, rfl⟩

/-! ## A directory and its name -/

/-- In the directory at `base` there is nothing but the directory `content`, called `d`. No path in
it is too long. -/
structure Alone (t : FileTree) (base : Path) (place : List String) (d : String) (content : Node) :
    Prop where
  parent : Place t base place (.directory [(d, content)])
  isPart : Path.IsPart d
  isDirectory : content.isDirectory = true
  short : ∀ q m, content.descend? q = some m → (base.down (d :: q)).text.utf8ByteSize < pathLimit

/-- The patterns lead to a file at `q` in the directory `content`. -/
def Selected (content : Node) (patterns : List String) (q : List String) : Prop :=
  (∃ pattern ∈ patterns, Leads content.descend? (pieces (Path.ofString pattern).parts) q) ∧
    ∃ m, content.descend? q = some m ∧ m.isFile = true

section OneName

variable (h : Alone t base place d content)
include h

lemma Alone.short_parent (q : List String) (m : Node)
    (hm : (Node.directory [(d, content)]).descend? q = some m) :
    (base.down q).text.utf8ByteSize < pathLimit := by
  obtain ⟨rfl, -⟩ | ⟨r, rfl, hr⟩ := Node.descend?_singleton.1 hm
  · exact Path.utf8ByteSize_text_down_lt (r := [d]) (h.short [] content rfl)
  · exact h.short r m hr

lemma Alone.canTest : t.canTest (base.down [d]) = true :=
  (h.parent.canTest_down_iff (Node.descend?_cons_singleton d content [])).2 (h.short [] content rfl)

lemma Alone.proper : Proper [d] := fun name hname =>
  ((h.parent.plain [d] content (Node.descend?_cons_singleton d content [])).2 name hname).proper

/-- The name can be a component of a path. -/
lemma Alone.isPart_of_mem : ∀ part ∈ [d], Path.IsPart part ∧ part ≠ ".." := by
  intro part hpart
  have hproper := h.proper part hpart
  obtain rfl := List.mem_singleton.1 hpart
  refine ⟨h.isPart, ?_⟩
  rintro rfl
  exact hproper (by simp)

lemma Alone.isDirectory_eq : t.isDirectory (base.down [d]) = true := by
  have hview := (shows_of_resolve h.parent.resolve h.parent.plain).find h.proper
  rw [Node.viewAt_eq_descend? h.short_parent, Node.descend?_cons_singleton] at hview
  rw [FileTree.isDirectory, hview]
  exact h.isDirectory

variable (hpatterns : ∀ pattern ∈ patterns, Below pattern)
include hpatterns

/-- The files that the patterns lead to, from a root of that name. -/
lemma Alone.mem_filesAmong_iff (hd : d ≠ "**") :
    f ∈ filesAmong t (candidates t (base.down [d]) patterns) ↔
      NamesItself d ∧ ∃ q, Selected content patterns q ∧ f = ⟨.root, place ++ [d] ++ q⟩ := by
  rw [mem_filesAmong_candidates h.parent hpatterns h.isPart_of_mem fun _ _ => List.cons_ne_nil _ _,
    Node.viewAt_eq_descend? h.short_parent]
  constructor
  · rintro ⟨pattern, hpattern, _, m, hleads, hm, hfile, rfl⟩
    obtain ⟨hitself, q, rfl, hq⟩ := (leads_name_iff h.isDirectory hd).1 hleads
    rw [Node.descend?_cons_singleton] at hm
    exact ⟨hitself, q, ⟨⟨pattern, hpattern, hq⟩, m, hm, hfile⟩, by simp⟩
  · rintro ⟨hitself, q, ⟨⟨pattern, hpattern, hq⟩, m, hm, hfile⟩, rfl⟩
    rw [← Node.descend?_cons_singleton d] at hm
    exact ⟨pattern, hpattern, d :: q, m,
      (leads_name_iff h.isDirectory hd).2 ⟨hitself, q, rfl, hq⟩, hm, hfile, by simp⟩

/-- Collecting is not broken off if the patterns start with names that are not too long. -/
lemma Alone.collect_ne_breakdown
    (hstart : ∀ pattern ∈ patterns, ShortStart base (d :: (Path.ofString pattern).parts))
    (b : Breakdown) : collect t (base.down [d]) patterns ≠ .error (.breakdown b) :=
  collect_ne_breakdown_iff.2 ⟨h.canTest, fun _ => unobstructed_down h.parent hpatterns
    h.isPart_of_mem (fun _ _ => List.cons_ne_nil _ _) h.short_parent hstart⟩ b

variable (hunbroken : ∀ b, collect t (base.down [d]) patterns ≠ .error (.breakdown b))
include hunbroken

/-- **The outcomes of collecting files from a root of that name.** -/
lemma Alone.collect_cases (hd : d ≠ "**") :
    ((¬ NamesItself d ∨ ∀ q, ¬ Selected content patterns q) ∧
        ∃ p, p.area = .files ∧ collect t (base.down [d]) patterns = .error (.problem p)) ∨
      NamesItself d ∧ ∃ qs, qs ≠ [] ∧ qs.Pairwise (· < ·) ∧
        (∀ q, q ∈ qs ↔ Selected content patterns q) ∧
        collect t (base.down [d]) patterns = .ok (filesBelow (place ++ [d]) qs) := by
  obtain ⟨hnone, -⟩ | ⟨-, ⟨hnil, hcollect⟩ | ⟨files, hne, hordered, hmem, hcollect⟩⟩ :=
    FileSet.collect_cases hunbroken
  · cases h.isDirectory_eq.symm.trans hnone
  · refine .inl ⟨?_, _, rfl, hcollect⟩
    by_contra hsome
    simp only [not_or, not_not, not_forall] at hsome
    obtain ⟨hitself, q, hq⟩ := hsome
    have hfile := (h.mem_filesAmong_iff hpatterns hd).2 ⟨hitself, q, hq, rfl⟩
    rw [hnil] at hfile
    cases hfile
  · have hfiles := fun f => (hmem f).trans (h.mem_filesAmong_iff hpatterns hd)
    -- a file that is found tells that the name fits itself
    obtain ⟨first, hfirst⟩ := List.exists_mem_of_ne_nil files hne
    obtain ⟨hitself, -⟩ := (hfiles first).1 hfirst
    obtain ⟨qs, rfl⟩ : ∃ qs, files = filesBelow (place ++ [d]) qs := by
      refine exists_filesBelow fun f hf => ?_
      obtain ⟨-, q, -, rfl⟩ := (hfiles f).1 hf
      exact ⟨q, rfl⟩
    refine .inr ⟨hitself, qs, ?_, ordered_filesBelow.1 hordered, fun q => ?_, hcollect⟩
    · rintro rfl
      exact hne rfl
    · refine mem_filesBelow.symm.trans ((hfiles _).trans ?_)
      rw [and_iff_right hitself]
      constructor
      · rintro ⟨r, hr, heq⟩
        rwa [List.append_cancel_left (congrArg Path.parts heq)]
      · exact fun hq => ⟨q, hq, rfl⟩

end OneName

/-- **Names that fit themselves make no difference.** Let a directory without links be alone in its
parent, and let the patterns be relative, without steps back. Then, unless collecting is broken off,

* under any two names that fit themselves when they are read as patterns, collecting files from the
  directory fails both times, or gives the same files, told from the directory; and
* under any other name than two stars, there are no files to be found.

**Proof sketch.** Under a name that fits itself, the files are those that the patterns lead to in
the directory (`Alone.collect_cases`), and there is one way to list them in order. -/
theorem collect_root_name (h : Alone t base place d content)
    (h' : Alone t' base' place' d' content) (hpatterns : ∀ pattern ∈ patterns, Below pattern)
    (hunbroken : ∀ b, collect t (base.down [d]) patterns ≠ .error (.breakdown b))
    (hunbroken' : ∀ b, collect t' (base'.down [d']) patterns ≠ .error (.breakdown b)) :
    (NamesItself d → NamesItself d' →
      ((∃ p, p.area = .files ∧ collect t (base.down [d]) patterns = .error (.problem p)) ∧
        ∃ p, p.area = .files ∧ collect t' (base'.down [d']) patterns = .error (.problem p)) ∨
      ∃ qs, collect t (base.down [d]) patterns = .ok (filesBelow (place ++ [d]) qs) ∧
        collect t' (base'.down [d']) patterns = .ok (filesBelow (place' ++ [d']) qs)) ∧
    (¬ NamesItself d → d ≠ "**" →
      ∃ p, p.area = .files ∧ collect t (base.down [d]) patterns = .error (.problem p)) := by
  constructor
  · intro hitself hitself'
    obtain ⟨hnone, hproblem⟩ | ⟨-, qs, hne, hsorted, hmem, hcollect⟩ :=
      h.collect_cases hpatterns hunbroken hitself.ne <;>
    obtain ⟨hnone', hproblem'⟩ | ⟨-, qs', hne', hsorted', hmem', hcollect'⟩ :=
      h'.collect_cases hpatterns hunbroken' hitself'.ne
    -- what is selected does not depend on the name, so that either both lists are empty or none is
    · exact .inl ⟨hproblem, hproblem'⟩
    · obtain ⟨q, hq⟩ := List.exists_mem_of_ne_nil qs' hne'
      exact absurd ((hmem' q).1 hq) (hnone.resolve_left (not_not.2 hitself) q)
    · obtain ⟨q, hq⟩ := List.exists_mem_of_ne_nil qs hne
      exact absurd ((hmem q).1 hq) (hnone'.resolve_left (not_not.2 hitself') q)
    · obtain rfl := hsorted.eq_of_mem_iff hsorted' fun q => (hmem q).trans (hmem' q).symm
      exact .inr ⟨qs, hcollect, hcollect'⟩
  · intro hitself hstars
    obtain ⟨-, hproblem⟩ | ⟨hitself', -⟩ := h.collect_cases hpatterns hunbroken hstars
    · exact hproblem
    · exact absurd hitself' hitself

/-- A directory with one script in it, by any name. -/
def shed (name : String) : FileTree := ⟨.directory [(name, .directory [("a.jls", .file [])])], []⟩

section Shed

variable {name : String} (hpart : Path.IsPart name) (hname : IsName name)
  (hshort : ∀ q ∈ [[], ["a.jls"]],
    (Path.down ⟨.relative, []⟩ (name :: q)).text.utf8ByteSize < pathLimit)
include hpart hname hshort

lemma alone_shed :
    Alone (shed name) ⟨.relative, []⟩ [] name (.directory [("a.jls", .file [])]) := by
  have hplain : (shed name).root.Plain :=
    Node.plain_singleton hname (Node.plain_singleton (by decide) (Node.plain_file []))
  exact
    { parent :=
        { resolve := resolve_here rfl
          seen := not_hidesLink_of_plain hplain
          plain := hplain
          isDirectory := rfl
          isPart := List.forall_mem_nil _
          literal := List.forall_mem_nil _ }
      isPart := hpart
      isDirectory := rfl
      short := fun q m hm => by
        obtain ⟨rfl, -⟩ | ⟨r, rfl, hr⟩ := Node.descend?_singleton.1 hm
        · exact hshort [] (by simp)
        · obtain ⟨rfl, -⟩ := Node.descend?_file.1 hr
          exact hshort ["a.jls"] (by simp) }

end Shed

lemma below_scripts : ∀ pattern ∈ ["*.jls"], Below pattern := by
  intro pattern hpattern
  obtain rfl := List.mem_singleton.1 hpattern
  exact ⟨by decide, by decide⟩

lemma selected_shed : Selected (.directory [("a.jls", .file [])]) ["*.jls"] ["a.jls"] := by
  have hpieces : pieces (Path.ofString "*.jls").parts = [.wildcard (.ofChars "*.jls".toList)] := by
    decide +kernel
  refine ⟨⟨_, List.mem_singleton.2 rfl, ?_⟩, .file [], by simp [Node.child?], rfl⟩
  rw [hpieces]
  refine ⟨["a.jls"], [], rfl, ⟨"a.jls", ?_, rfl, by decide +kernel, .inl rfl⟩, rfl⟩
  exact List.mem_singleton.2 rfl

lemma alone_shed_plain :
    Alone (shed "x") ⟨.relative, []⟩ [] "x" (.directory [("a.jls", .file [])]) :=
  alone_shed (by decide) (by decide) (by decide)

lemma alone_shed_starred :
    Alone (shed "x*") ⟨.relative, []⟩ [] "x*" (.directory [("a.jls", .file [])]) :=
  alone_shed (by decide) (by decide) (by decide)

lemma alone_shed_bracketed :
    Alone (shed "[x]") ⟨.relative, []⟩ [] "[x]" (.directory [("a.jls", .file [])]) :=
  alone_shed (by decide) (by decide) (by decide)

lemma exists_collect_shed_plain :
    ∃ files, collect (shed "x") ⟨.relative, ["x"]⟩ ["*.jls"] = .ok files := by
  obtain ⟨hnone, -⟩ | ⟨-, qs, -, -, -, hcollect⟩ := alone_shed_plain.collect_cases below_scripts
    (alone_shed_plain.collect_ne_breakdown below_scripts (by decide)) (by decide)
  · exact absurd selected_shed (hnone.resolve_left (by decide) _)
  · exact ⟨_, hcollect⟩

/-- A star in the name of the shed makes no difference, and brackets do. -/
theorem collect_root_name_shed :
    (∃ qs, collect (shed "x") ⟨.relative, ["x"]⟩ ["*.jls"] = .ok (filesBelow ["x"] qs) ∧
      collect (shed "x*") ⟨.relative, ["x*"]⟩ ["*.jls"] = .ok (filesBelow ["x*"] qs)) ∧
    ∃ p, p.area = .files ∧
      collect (shed "[x]") ⟨.relative, ["[x]"]⟩ ["*.jls"] = .error (.problem p) := by
  have hplain := alone_shed_plain.collect_ne_breakdown below_scripts (by decide +kernel)
  have hstarred := alone_shed_starred.collect_ne_breakdown below_scripts (by decide +kernel)
  have hbracketed := alone_shed_bracketed.collect_ne_breakdown below_scripts (by decide +kernel)
  obtain ⟨hsame, -⟩ :=
    collect_root_name alone_shed_plain alone_shed_starred below_scripts hplain hstarred
  obtain ⟨-, hother⟩ :=
    collect_root_name alone_shed_bracketed alone_shed_plain below_scripts hbracketed hplain
  refine ⟨?_, hother (by decide +kernel) (by decide)⟩
  obtain ⟨⟨p, -, hp⟩, -⟩ | hfound := hsame (by decide +kernel) (by decide +kernel)
  · obtain ⟨files, hfiles⟩ := exists_collect_shed_plain
    cases hfiles.symm.trans hp
  · exact hfound

/-- **The name of a root may hide what is in it**: a script is found in the directory `x`, and not
in the same directory if that is called `[x]`. -/
theorem collect_bracketed_root :
    (∃ files, collect (shed "x") (.ofString "x") ["*.jls"] = .ok files) ∧
      ∃ p, p.area = .files ∧
        collect (shed "[x]") (.ofString "[x]") ["*.jls"] = .error (.problem p) := by
  have hplain : Path.ofString "x" = ⟨.relative, ["x"]⟩ := by decide +kernel
  have hbracketed : Path.ofString "[x]" = (Path.mk .relative []).down ["[x]"] := by decide +kernel
  rw [hplain, hbracketed]
  refine ⟨exists_collect_shed_plain, ?_⟩
  obtain ⟨-, hproblem⟩ | ⟨hitself, -⟩ := alone_shed_bracketed.collect_cases below_scripts
    (alone_shed_bracketed.collect_ne_breakdown below_scripts (by decide +kernel)) (by decide)
  · exact hproblem
  · exact absurd hitself (by decide +kernel)

end FileSet

end WorkflowLint
