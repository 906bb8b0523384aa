import WorkflowLint.Proofs.Collection

/-!
# The scripts below a directory

If no patterns are given, the files of a run are the scripts below the root: the files at any depth
whose names end as the names of scripts do, hidden ones and those in hidden directories included.
Directories are not files, whatever they are called. Each script is listed once, in the order of
path components.

It is told in full when this fails. A root that is no directory and a root without scripts are
problems; but where the system cannot tell what a path leads to, because a name or a path is too
long, the run is broken off, and there is no problem to report.

## Main definitions

* `WorkflowLint.FileSet.IsScript` — the scripts below a root.
* `WorkflowLint.FileSet.HasLongEntry` — an entry called like a script is too far down.

## Main results

* `WorkflowLint.FileSet.mem_candidates_defaultPatterns` — what the patterns stand for.
* `WorkflowLint.FileSet.collect_defaultPatterns` — every script is found and nothing else.
* `WorkflowLint.FileSet.collect_long_root` — a root that is no directory and is not reported.
-/

set_option autoImplicit false

namespace WorkflowLint

namespace Glob.Wildcard

/-- A character on its own fits itself. -/
lemma accepts_map_literal (text cs : List Char) :
    accepts (text.map literal) cs = (cs == text) := by
  induction text generalizing cs with
  | nil => cases cs <;> simp
  | cons c text ih =>
    have hholds : ∀ c', (CharSet.mk false [.single c]).holds c' = (c' == c) := by
      intro c'
      rw [Bool.eq_iff_iff, beq_iff_eq, CharSet.holds]
      simp only [List.any_cons, List.any_nil, Span.single, Span.holds, Bool.or_false,
        Bool.false_bne, Bool.and_eq_true, decide_eq_true_eq]
      exact ⟨fun h => Char.le_antisymm h.2 h.1, fun h => h ▸ ⟨Char.le_refl c', Char.le_refl c'⟩⟩
    cases cs with
    | nil => rfl
    | cons c' cs => rw [List.map_cons, literal, accepts_oneOf_cons, ih, hholds, List.cons_beq_cons]

/-- A star in front of a text fits what ends with the text. -/
lemma accepts_star_map_literal (text cs : List Char) :
    accepts (.star :: text.map literal) cs = true ↔ text <:+ cs := by
  induction cs with
  | nil => rw [accepts_star_nil, accepts_map_literal, beq_iff_eq, List.suffix_nil, eq_comm]
  | cons c cs ih =>
    rw [accepts_star_cons, Bool.or_eq_true, ih, accepts_map_literal, List.suffix_cons_iff,
      beq_iff_eq, eq_comm]

lemma ofChars_of_literal {cs : List Char} (h : ∀ c ∈ cs, c ∉ ['*', '?', '[']) :
    ofChars cs = cs.map literal := by
  induction cs with
  | nil => simp [ofChars]
  | cons c cs ih =>
    obtain ⟨hc, hcs⟩ := List.forall_mem_cons.1 h
    simp only [List.mem_cons, List.not_mem_nil, or_false, not_or] at hc
    rw [ofChars, ih hcs, List.map_cons] <;> simp [hc]

end Glob.Wildcard

namespace FileSet

open FileTree Glob

/-! ## The patterns that are used when none are given -/

/-- The endings of the names of scripts. -/
def scriptEndings : List String := [".julietscript", ".juliet", ".jls"]

/-- Is this the name of a script? -/
def IsScriptName (name : String) : Prop := ∃ ending ∈ scriptEndings, ending.toList <:+ name.toList

/-- There is a pattern for each ending: a name that ends so, any number of directories down. -/
lemma defaultPatterns_eq : defaultPatterns = scriptEndings.map ("**/*" ++ ·) := by
  decide

lemma ofString_defaultPattern : ∀ ending ∈ scriptEndings,
    Path.ofString ("**/*" ++ ending) = ⟨.relative, ["**", "*" ++ ending]⟩ := by
  decide

lemma literal_of_mem_scriptEndings : ∀ ending ∈ scriptEndings, Literal ending := by
  decide

lemma pieces_defaultPattern {ending : String} (h : ending ∈ scriptEndings) :
    pieces (Path.ofString ("**/*" ++ ending)).parts =
      [.anyDepth, .wildcard (.star :: ending.toList.map Wildcard.literal)] := by
  have hstar : ("*" ++ ending).toList = '*' :: ending.toList := by simp
  have hne : ending.toList ≠ ['*'] := fun hnil =>
    literal_of_mem_scriptEndings ending h '*' (by simp [hnil]) (by simp)
  rw [ofString_defaultPattern ending h, pieces, List.map_cons, List.map_singleton, hstar]
  congr 1
  rw [Piece.ofChars, if_neg (by simpa using hne), if_pos (by simp), Wildcard.ofChars,
    Wildcard.ofChars_of_literal (literal_of_mem_scriptEndings ending h)]

/-- Below `n`, which is at the path `p`, there is an entry at `q` that has the name of a script. The
path of its directory is not too long. -/
structure ScriptEntry (n : Node) (p : Path) (q : List String) (m : Node) : Prop where
  descend? : n.descend? q = some m
  reach : (p.down q.dropLast).text.utf8ByteSize < pathLimit
  name : ∃ name, q.getLast? = some name ∧ IsScriptName name

lemma ScriptEntry.proper {n : Node} {p : Path} {q : List String} {m : Node}
    (h : ScriptEntry n p q m) (hplain : n.Plain) : Proper q :=
  fun name hname => ((hplain q m h.descend?).2 name hname).proper

variable {t : FileTree} {p x f : Path} {place q : List String} {n : Node}

/-- What one of the patterns leads to, below a place without links. -/
lemma leads_defaultPattern_iff {ending : String} (hshows : t.Shows p (n.viewAt p)) :
    Leads (n.viewAt p) [.anyDepth, .wildcard (.star :: ending.toList.map Wildcard.literal)] q ↔
      ∃ d name m, q = d ++ [name] ∧ n.descend? q = some m ∧
        (p.down d).text.utf8ByteSize < pathLimit ∧ ending.toList <:+ name.toList := by
  constructor
  · rintro ⟨d, _, rfl, -, _, _, rfl, ⟨name, hname, rfl, haccepts, -⟩, rfl⟩
    cases hd : (n.viewAt p).under d [] with
    | none => simp [View.names, hd] at hname
    | some k =>
      rw [View.names, hd] at hname
      rw [View.under, List.append_nil] at hd
      obtain ⟨hshort, hdown⟩ := Node.viewAt_eq_some_iff.1 hd
      obtain ⟨entries, m, rfl, hm⟩ := Node.exists_of_mem_names hname
      refine ⟨d, name, m, by rw [List.append_nil], ?_, hshort,
        (Wildcard.accepts_star_map_literal _ _).1 haccepts⟩
      rw [List.append_nil, Node.descend?_append, hdown]
      simpa [Node.child?] using hm
  · rintro ⟨d, name, m, rfl, hm, hshort, hending⟩
    rw [Node.descend?_append] at hm
    obtain ⟨k, hk, hchild⟩ := Option.bind_eq_some_iff.1 hm
    obtain ⟨entries, rfl, hlookup⟩ := Node.exists_directory_of_child? (by simpa using hchild)
    have hview : n.viewAt p d = some (.directory entries) :=
      Node.viewAt_eq_some_iff.2 ⟨hshort, hk⟩
    refine ⟨d, [name], rfl, chain_of_eq_some hshows hview fun _ => rfl, [name], [], rfl,
      ⟨name, ?_, rfl, (Wildcard.accepts_star_map_literal _ _).2 hending, .inl rfl⟩, rfl⟩
    rw [View.names, View.under, List.append_nil, hview]
    exact Node.mem_names_of_lookup hlookup

lemma exists_leads_iff {place : List String} (hp : Place t p place n) :
    (∃ pattern ∈ defaultPatterns,
        Leads (n.viewAt p) (pieces (Path.ofString pattern).parts) q) ↔
      ∃ m, ScriptEntry n p q m := by
  have hshows : t.Shows p (n.viewAt p) := shows_of_resolve hp.resolve hp.plain
  rw [defaultPatterns_eq]
  constructor
  · rintro ⟨pattern, hpattern, hleads⟩
    obtain ⟨ending, hending, rfl⟩ := List.mem_map.1 hpattern
    rw [pieces_defaultPattern hending, leads_defaultPattern_iff hshows] at hleads
    obtain ⟨d, name, m, rfl, hm, hreach, hsuffix⟩ := hleads
    exact ⟨m, hm, by simpa using hreach, name, by simp, ending, hending, hsuffix⟩
  · rintro ⟨m, hm, hreach, name, hname, ending, hending, hsuffix⟩
    obtain ⟨d, rfl⟩ := List.getLast?_eq_some_iff.1 hname
    refine ⟨_, List.mem_map.2 ⟨ending, hending, rfl⟩, ?_⟩
    rw [pieces_defaultPattern hending, leads_defaultPattern_iff hshows]
    exact ⟨d, name, m, rfl, hm, by simpa using hreach, hsuffix⟩

lemma below_of_mem_defaultPatterns {pattern : String} (h : pattern ∈ defaultPatterns) :
    Below pattern := by
  have hparent : ∀ ending ∈ scriptEndings, ".." ∉ ["**", "*" ++ ending] := by decide
  rw [defaultPatterns_eq] at h
  obtain ⟨ending, hending, rfl⟩ := List.mem_map.1 h
  have hparts := ofString_defaultPattern ending hending
  exact ⟨by rw [hparts]; rfl, by rw [hparts]; exact hparent ending hending⟩

lemma parts_ne_nil_of_mem_defaultPatterns {pattern : String} (h : pattern ∈ defaultPatterns) :
    [] ++ (Path.ofString pattern).parts ≠ [] := by
  obtain ⟨ending, hending, rfl⟩ := List.mem_map.1 (defaultPatterns_eq ▸ h)
  rw [ofString_defaultPattern ending hending]
  exact List.cons_ne_nil _ _

lemma nullFree_of_mem_defaultPatterns :
    ∀ pattern ∈ defaultPatterns, '\x00' ∉ pattern.toList := by
  decide

/-- One of the patterns, component by component. -/
lemma mem_expand_defaultPattern (hshows : t.Shows p (n.viewAt p)) {pattern : String}
    (hpattern : pattern ∈ defaultPatterns) :
    x ∈ Pattern.expand t ⟨p.anchor, p.parts.map .literal ++ pieces (Path.ofString pattern).parts⟩ ↔
      ∃ q, x = p.down q ∧ Leads (n.viewAt p) (pieces (Path.ofString pattern).parts) q := by
  obtain ⟨ending, hending, rfl⟩ := List.mem_map.1 (defaultPatterns_eq ▸ hpattern)
  have hliterals : ProperLiterals
      [.anyDepth, .wildcard (.star :: ending.toList.map Wildcard.literal)] := by
    intro name hname
    simp at hname
  have hexpand := mem_expandFrom (x := x) hshows hliterals
  rw [pieces_defaultPattern hending, expand_of_isMagic t p rfl, List.mem_filter]
  rw [← p.down_nil] at hexpand
  refine (and_congr_left fun _ => hexpand).trans ?_
  rw [p.down_nil]
  refine and_iff_left_of_imp ?_
  rintro ⟨q, rfl, hleads⟩
  -- the working directory itself is not among the paths, because a name follows
  obtain ⟨d, name, m, rfl, -⟩ := (leads_defaultPattern_iff hshows).1 hleads
  simp [Path.down]

/-- **The paths that the patterns stand for** are those of the entries that have the name of a
script. -/
lemma mem_candidates_defaultPatterns (hp : Place t p place n) :
    x ∈ candidates t p defaultPatterns ↔ ∃ q m, ScriptEntry n p q m ∧ x = p.down q := by
  have hshows : t.Shows p (n.viewAt p) := shows_of_resolve hp.resolve hp.plain
  have hcandidates := mem_candidates (x := x) hp (fun _ => below_of_mem_defaultPatterns)
    (List.forall_mem_nil _) fun _ => parts_ne_nil_of_mem_defaultPatterns
  rw [Path.down_nil] at hcandidates
  rw [hcandidates]
  constructor
  · rintro ⟨pattern, hpattern, hx⟩
    obtain ⟨q, rfl, hleads⟩ := (mem_expand_defaultPattern hshows hpattern).1 hx
    obtain ⟨m, hentry⟩ := (exists_leads_iff hp).1 ⟨pattern, hpattern, hleads⟩
    exact ⟨q, m, hentry, rfl⟩
  · rintro ⟨q, m, hentry, rfl⟩
    obtain ⟨pattern, hpattern, hleads⟩ := (exists_leads_iff hp).2 ⟨m, hentry⟩
    exact ⟨pattern, hpattern, (mem_expand_defaultPattern hshows hpattern).2 ⟨q, rfl, hleads⟩⟩

/-- If no path is too long, the files among these paths are the scripts. -/
lemma mem_filesAmong_defaultPatterns (hp : Place t p place n)
    (hshort : ∀ q m, ScriptEntry n p q m → (p.down q).text.utf8ByteSize < pathLimit) :
    f ∈ filesAmong t (candidates t p defaultPatterns) ↔
      ∃ q m, ScriptEntry n p q m ∧ m.isFile = true ∧ f = ⟨.root, place ++ q⟩ := by
  have hshows : t.Shows p (n.viewAt p) := shows_of_resolve hp.resolve hp.plain
  have hentry : ∀ {q m}, ScriptEntry n p q m → t.isFile (p.down q) = m.isFile := by
    intro q m h
    have hview := Node.viewAt_eq_some_iff.2 ⟨hshort q m h, h.descend?⟩
    rw [FileTree.isFile, hshows.find (h.proper hp.plain), hview]
    rfl
  rw [mem_filesAmong]
  constructor
  · rintro ⟨x, hx, hfile, hcanonical⟩
    obtain ⟨q, m, h, rfl⟩ := (mem_candidates_defaultPatterns hp).1 hx
    rw [hentry h] at hfile
    rw [hp.canonical? (h.proper hp.plain)] at hcanonical
    exact ⟨q, m, h, hfile, (Option.some.inj hcanonical).symm⟩
  · rintro ⟨q, m, h, hfile, rfl⟩
    exact ⟨p.down q, (mem_candidates_defaultPatterns hp).2 ⟨q, m, h, rfl⟩,
      (hentry h).trans hfile, hp.canonical? (h.proper hp.plain)⟩

/-! ## The main result -/

/-- The file `f` is a script below the directory `root`. -/
def IsScript (t : FileTree) (root f : Path) : Prop :=
  ∃ place n q m, t.resolve true root = .ok (place, n) ∧ ScriptEntry n root q m ∧
    m.isFile = true ∧ f = ⟨.root, place ++ q⟩

/-- The path of an entry with the name of a script, below the directory `root`, is too long. -/
def HasLongEntry (t : FileTree) (root : Path) : Prop :=
  ∃ place n q m, t.resolve true root = .ok (place, n) ∧ ScriptEntry n root q m ∧
    pathLimit ≤ (root.down q).text.utf8ByteSize

/-- Only a directory has entries. -/
lemma ScriptEntry.isDirectory {m : Node} (h : ScriptEntry n p q m) : n.isDirectory = true := by
  obtain ⟨name, hname, -⟩ := h.name
  cases q with
  | nil => cases hname
  | cons first q =>
    obtain ⟨k, hk, -⟩ := Option.bind_eq_some_iff.1 (Node.descend?_cons n first q ▸ h.descend?)
    obtain ⟨entries, rfl, -⟩ := Node.exists_directory_of_child? hk
    rfl

lemma isDirectory_of_resolve {root : Path} (h : t.resolve true root = .ok (place, n)) :
    t.isDirectory root = n.isDirectory := by
  simp [FileTree.isDirectory, FileTree.find?, h, Except.toOption]

section Main

variable {r : String} (hliteral : Literal r)
  (hplain : ∀ place n, t.resolve true (.ofString r) = .ok (place, n) → n.Plain)
  (hseen : ¬ t.HidesLink (.ofString r))
include hliteral hplain hseen

/-- A directory that is found is a place. -/
lemma place_of_resolve (hresolve : t.resolve true (.ofString r) = .ok (place, n))
    (hdirectory : n.isDirectory = true) : Place t (.ofString r) place n where
  resolve := hresolve
  seen := hseen
  plain := hplain place n hresolve
  isDirectory := hdirectory
  isPart _ hpart := Path.isPart_of_mem_ofString hpart
  literal _ hpart c hc := hliteral c (Path.mem_of_mem_ofString hpart hc)

lemma exists_place (hdirectory : t.isDirectory (.ofString r) = true) :
    ∃ place n, Place t (.ofString r) place n := by
  cases hresolve : t.resolve true (.ofString r) with
  | error e => simp [FileTree.isDirectory, FileTree.find?, hresolve, Except.toOption] at hdirectory
  | ok found =>
    rw [isDirectory_of_resolve hresolve] at hdirectory
    exact ⟨found.1, found.2, place_of_resolve hliteral hplain hseen hresolve hdirectory⟩

/-- If collecting is broken off, it cannot be told what the root or one of the entries is. -/
lemma untestable_of_collect_defaultPatterns {b : Breakdown}
    (h : collect t (.ofString r) defaultPatterns = .error (.breakdown b)) :
    b = .untestable ∧ (t.canTest (.ofString r) = false ∨ HasLongEntry t (.ofString r)) := by
  obtain ⟨hroot, rfl⟩ | ⟨hdirectory, hfirst⟩ := collect_eq_breakdown_iff.1 h
  · exact ⟨rfl, .inl hroot⟩
  obtain ⟨place, n, hp⟩ := exists_place hliteral hplain hseen hdirectory
  obtain ⟨pattern, hpattern, hnull⟩ | ⟨x, hx, hbars⟩ := exists_of_obstructs hfirst
  · have hlistable := isUnlistable_eq_false hdirectory (nullFree_of_mem_defaultPatterns _ hpattern)
    cases hlistable.symm.trans hnull
  obtain ⟨q, m, hentry, rfl⟩ := (mem_candidates_defaultPatterns hp).1 hx
  obtain htest | ⟨-, -, hcanonical⟩ := hbars
  · refine ⟨rfl, .inr ⟨place, n, q, m, hp.resolve, hentry, Nat.le_of_not_lt fun hshort => ?_⟩⟩
    cases htest.symm.trans ((hp.canTest_down_iff hentry.descend?).2 hshort)
  · cases hcanonical.symm.trans (hp.canonical? (hentry.proper hp.plain))

/-- **Collecting is broken off where it cannot be told what the root or one of the entries is**, and
nowhere else. -/
lemma collect_defaultPatterns_eq_breakdown_iff {b : Breakdown} :
    collect t (.ofString r) defaultPatterns = .error (.breakdown b) ↔
      b = .untestable ∧ (t.canTest (.ofString r) = false ∨ HasLongEntry t (.ofString r)) := by
  refine ⟨untestable_of_collect_defaultPatterns hliteral hplain hseen, ?_⟩
  rintro ⟨rfl, hlong⟩
  by_contra hnot
  have hunbroken : ∀ b, collect t (.ofString r) defaultPatterns ≠ .error (.breakdown b) := by
    intro b hb
    obtain ⟨rfl, -⟩ := untestable_of_collect_defaultPatterns hliteral hplain hseen hb
    exact hnot hb
  obtain ⟨hroot, hclear⟩ := collect_ne_breakdown_iff.1 hunbroken
  obtain hfalse | ⟨place, n, q, m, hresolve, hentry, hlong⟩ := hlong
  · cases hroot.symm.trans hfalse
  · have hp := place_of_resolve hliteral hplain hseen hresolve hentry.isDirectory
    obtain ⟨-, hpaths⟩ := unobstructed_iff.1 (hclear hp.isDirectory_eq)
    have hcandidate := (mem_candidates_defaultPatterns hp).2 ⟨q, m, hentry, rfl⟩
    obtain ⟨htest, -⟩ := pathObstacle?_eq_none_iff.1 (hpaths _ hcandidate)
    exact absurd ((hp.canTest_down_iff hentry.descend?).1 htest) (Nat.not_lt_of_le hlong)

/-- If no path is too long, the scripts are the files among the paths. -/
lemma isScript_iff (hlong : ¬ HasLongEntry t (.ofString r))
    (hdirectory : t.isDirectory (.ofString r) = true) :
    f ∈ filesAmong t (candidates t (.ofString r) defaultPatterns) ↔
      IsScript t (.ofString r) f := by
  obtain ⟨place, n, hp⟩ := exists_place hliteral hplain hseen hdirectory
  rw [mem_filesAmong_defaultPatterns hp fun q m hentry => Nat.lt_of_not_le fun hle =>
    hlong ⟨place, n, q, m, hp.resolve, hentry, hle⟩]
  constructor
  · rintro ⟨q, m, hentry, hfile, rfl⟩
    exact ⟨place, n, q, m, hp.resolve, hentry, hfile, rfl⟩
  · rintro ⟨place', n', q, m, hresolve, hentry, hfile, rfl⟩
    obtain ⟨rfl, rfl⟩ := Prod.mk.inj (Except.ok.inj (hp.resolve.symm.trans hresolve))
    exact ⟨q, m, hentry, hfile, rfl⟩

end Main

lemma IsScript.isDirectory {root : Path} (h : IsScript t root f) : t.isDirectory root = true := by
  obtain ⟨place, n, q, m, hresolve, hentry, -⟩ := h
  rw [isDirectory_of_resolve hresolve, hentry.isDirectory]

/-- **Discovery finds every script and nothing else.** Let the text `r` of a root have no characters
with a meaning in patterns, and let there be no links below the root, and none on the way there
that is not seen. With the patterns that are used when none are given,

* collecting breaks off exactly if the system cannot tell what the root is, or what an entry is that
  has the name of a script, because a name or a path is too long; and otherwise
* it fails exactly if the root is no directory or there is no script, and
* what it returns are the scripts, at any depth, each once, by their absolute paths without links
  and in the order of path components.

**Proof sketch.** The patterns lead to the entries that have the name of a script
(`mem_candidates_defaultPatterns`), and there is one way to list the files among them in order. -/
theorem collect_defaultPatterns (t : FileTree) {r : String} (hliteral : Literal r)
    (hplain : ∀ place n, t.resolve true (.ofString r) = .ok (place, n) → n.Plain)
    (hseen : ¬ t.HidesLink (.ofString r)) :
    let root := Path.ofString r
    let result := collect t root defaultPatterns
    (result = .error (.breakdown .untestable) ↔ t.canTest root = false ∨ HasLongEntry t root) ∧
      (result ≠ .error (.breakdown .untestable) →
        ((∃ p, p.area = .files ∧ result = .error (.problem p)) ↔
          t.isDirectory root = false ∨ ∀ f, ¬ IsScript t root f) ∧
        ∀ files, result = .ok files ↔
          files ≠ [] ∧ Ordered files ∧ ∀ f, f ∈ files ↔ IsScript t root f) := by
  intro root result
  have hbreakdown := fun b =>
    collect_defaultPatterns_eq_breakdown_iff hliteral hplain hseen (b := b)
  refine ⟨(hbreakdown .untestable).trans (and_iff_right rfl), fun hresult => ?_⟩
  have hlong : ¬ HasLongEntry t root := fun hlong =>
    hresult ((hbreakdown .untestable).2 ⟨rfl, .inr hlong⟩)
  refine collect_eq_iff_of_mem_iff ?_ (fun f hf => hf.isDirectory) fun hdirectory f =>
    isScript_iff hliteral hplain hseen hlong hdirectory
  rintro b hb
  obtain ⟨rfl, -⟩ := (hbreakdown b).1 hb
  exact hresult hb

/-- A directory that is named like a script, with a hidden script in it. -/
def shelf : Node := .directory [("d.jls", .directory [(".b.juliet", .file [])])]

lemma plain_shelf : shelf.Plain :=
  Node.plain_singleton (by decide)
    (Node.plain_singleton (by decide) (Node.plain_file []))

lemma descend?_shelf {m : Node} (h : shelf.descend? q = some m) :
    q = [] ∨ (q = ["d.jls"] ∧ m.isFile = false) ∨ (q = ["d.jls", ".b.juliet"] ∧ m = .file []) := by
  obtain ⟨rfl, -⟩ | ⟨r, rfl, hr⟩ := Node.descend?_singleton.1 h
  · exact .inl rfl
  obtain ⟨rfl, rfl⟩ | ⟨r, rfl, hr⟩ := Node.descend?_singleton.1 hr
  · exact .inr (.inl ⟨rfl, rfl⟩)
  · obtain ⟨rfl, rfl⟩ := Node.descend?_file.1 hr
    exact .inr (.inr ⟨rfl, rfl⟩)

/-- The script on the shelf is found, and the directory is not. -/
theorem collect_defaultPatterns_shelf :
    let t : FileTree := ⟨shelf, []⟩
    collect t (.ofString ".") defaultPatterns = .ok [⟨.root, ["d.jls", ".b.juliet"]⟩] := by
  intro t
  have hroot : t.resolve true (.ofString ".") = .ok ([], shelf) := resolve_here rfl
  have hplain : ∀ place n, t.resolve true (.ofString ".") = .ok (place, n) → n.Plain := by
    intro place n h
    obtain ⟨-, rfl⟩ := Prod.mk.inj (Except.ok.inj (hroot.symm.trans h))
    exact plain_shelf
  obtain ⟨hbreakdown, hcollect⟩ := collect_defaultPatterns t (r := ".") (by decide) hplain
    (not_hidesLink_of_plain plain_shelf)
  have hresult : collect t (.ofString ".") defaultPatterns ≠ .error (.breakdown .untestable) := by
    rw [ne_eq, hbreakdown, canTest, hroot, not_or]
    refine ⟨Bool.false_ne_true.symm, ?_⟩
    rintro ⟨place, n, q, m, h, hentry, hlong⟩
    obtain ⟨-, rfl⟩ := Prod.mk.inj (Except.ok.inj (hroot.symm.trans h))
    refine Nat.not_lt_of_le hlong ?_
    obtain rfl | ⟨rfl, -⟩ | ⟨rfl, -⟩ := descend?_shelf hentry.descend? <;> decide +kernel
  refine ((hcollect hresult).2 _).2 ⟨List.cons_ne_nil _ _, List.pairwise_singleton _ _, fun f => ?_⟩
  rw [List.mem_singleton]
  constructor
  · rintro rfl
    refine ⟨[], shelf, _, .file [], hroot, ⟨rfl, by decide +kernel, ".b.juliet", rfl, ?_⟩, rfl, rfl⟩
    exact ⟨".juliet", by decide, by decide +kernel⟩
  · rintro ⟨place, n, q, m, h, hentry, hfile, rfl⟩
    obtain ⟨rfl, rfl⟩ := Prod.mk.inj (Except.ok.inj (hroot.symm.trans h))
    obtain rfl | ⟨rfl, hdirectory⟩ | ⟨rfl, -⟩ := descend?_shelf hentry.descend?
    · obtain ⟨name, hname, -⟩ := hentry.name
      cases hname
    · cases hfile.symm.trans hdirectory
    · rfl

/-- There are names that are too long to be looked up. -/
lemma exists_resolve_eq_nameTooLong : ∃ r, Literal r ∧
    (⟨shelf, []⟩ : FileTree).resolve true (.ofString r) = .error .nameTooLong := by
  have hnull : '\x00' ∉ (String.ofList (List.replicate 300 'x')).toList := fun hc =>
    absurd (Path.eq_of_mem_replicate hc) (by decide)
  have hlong : nameLimit < (String.ofList (List.replicate 300 'x')).utf8ByteSize := by
    rw [Path.utf8ByteSize_replicate]
    decide
  refine ⟨.ofList (.replicate 300 'x'), literal_replicate (by decide), ?_⟩
  rw [Path.ofString_replicate (by decide) (by decide)]
  exact resolve_long rfl (Path.proper_replicate (by decide)) hnull hlong

/-- **A root that is no directory is not always reported**: if its name is too long, collecting
breaks off. -/
theorem collect_long_root :
    ∃ (t : FileTree) (r : String), t.root.Plain ∧ Literal r ∧ t.isDirectory (.ofString r) = false ∧
      ∀ p, collect t (.ofString r) defaultPatterns ≠ .error (.problem p) := by
  obtain ⟨r, hliteral, hresolve⟩ := exists_resolve_eq_nameTooLong
  refine ⟨⟨shelf, []⟩, r, plain_shelf, hliteral, ?_, fun p hp => ?_⟩
  · simp [FileTree.isDirectory, find?, hresolve, Except.toOption]
  · simp [collect, canTest, hresolve] at hp

end FileSet

end WorkflowLint
