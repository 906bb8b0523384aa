import WorkflowLint.Proofs.PathText
import WorkflowLint.Proofs.Walk

/-!
# Places without links

Below a place where there are no links, a path leads where its names lead, and nowhere else. All
that is special about paths is their length: a path that is too long leads nowhere, whatever is
there.

## Main definitions

* `WorkflowLint.Node.Plain` — an entry below which there are no links.
* `WorkflowLint.View` — what is found at the places below a place.
* `WorkflowLint.FileTree.Shows` — a tree shows this view below a path.

## Main results

* `WorkflowLint.FileTree.exists_links_of_walk` — a walk goes on from where it has arrived.
* `WorkflowLint.FileTree.resolve_down` — where the paths below a place lead.
* `WorkflowLint.FileTree.canTest_down` — what is in the way of telling where they lead.
* `WorkflowLint.FileTree.shows_of_resolve` — the view of a place without links.
-/

set_option autoImplicit false

namespace WorkflowLint

/-- The path `p`, gone on along the names `q`. -/
def Path.down (p : Path) (q : List String) : Path := { p with parts := p.parts ++ q }

namespace Path

variable (p : Path)

@[simp] lemma down_nil : p.down [] = p := by
  rw [down, List.append_nil]

@[simp] lemma down_down (q r : List String) : (p.down q).down r = p.down (q ++ r) := by
  simp only [down, List.append_assoc]

/-- What is written is not shorter if something is added at the end. -/
lemma utf8ByteSize_intercalate_append_le (parts more : List String) :
    ("/".intercalate parts).utf8ByteSize ≤ ("/".intercalate (parts ++ more)).utf8ByteSize := by
  induction parts with
  | nil => exact Nat.zero_le _
  | cons part parts ih =>
    cases parts with
    | nil =>
      cases more with
      | nil => exact Nat.le_refl _
      | cons next more =>
        rw [List.singleton_append, String.intercalate_cons_cons, String.utf8ByteSize_append,
          String.utf8ByteSize_append, String.intercalate_singleton]
        omega
    | cons next parts =>
      rw [List.cons_append, List.cons_append, String.intercalate_cons_cons,
        String.intercalate_cons_cons, String.utf8ByteSize_append, String.utf8ByteSize_append,
        String.utf8ByteSize_append, String.utf8ByteSize_append]
      exact Nat.add_le_add_left ih _

/-- Each component that is not empty takes a byte, at least. -/
lemma length_filter_le_utf8ByteSize (parts : List String) :
    (parts.filter (· ≠ "")).length ≤ ("/".intercalate parts).utf8ByteSize := by
  induction parts with
  | nil => exact Nat.zero_le _
  | cons part parts ih =>
    have hpart : ([part].filter (· ≠ "")).length ≤ part.utf8ByteSize := by
      by_cases hempty : part = ""
      · simp [hempty]
      · have hpos := Nat.pos_of_ne_zero (String.utf8ByteSize_eq_zero_iff.not.2 hempty)
        simpa [hempty] using Nat.succ_le_of_lt hpos
    rw [← List.singleton_append, List.filter_append, List.length_append]
    cases parts with
    | nil => simpa using hpart
    | cons next parts =>
      rw [List.singleton_append, String.intercalate_cons_cons, String.utf8ByteSize_append,
        String.utf8ByteSize_append]
      omega

end Path

/-! ## Entries below which there are no links -/

namespace Node

variable {n m : Node} {parts : List String}

/-- Nothing that is reached is a link, and everything is reached by names. -/
def Plain (n : Node) : Prop :=
  ∀ parts m, n.descend? parts = some m → m.isLink = false ∧ ∀ name ∈ parts, FileTree.IsName name

lemma Plain.descend? (h : n.Plain) (hm : n.descend? parts = some m) : m.Plain := by
  intro more k hk
  obtain ⟨hlink, hnames⟩ := h (parts ++ more) k (by rw [descend?_append, hm]; exact hk)
  exact ⟨hlink, fun name hname => hnames name (List.mem_append_right parts hname)⟩

lemma Plain.isLink (h : n.Plain) : n.isLink = false := (h [] n rfl).1

/-- A directory with one entry. -/
lemma descend?_singleton {name : String} {q : List String} :
    (directory [(name, n)]).descend? q = some m ↔
      (q = [] ∧ m = directory [(name, n)]) ∨ ∃ r, q = name :: r ∧ n.descend? r = some m := by
  cases q with
  | nil => simp [eq_comm]
  | cons first q =>
    by_cases hfirst : first = name
    · subst hfirst
      simp [child?]
    · have hlookup : [(name, n)].lookup first = none := by simp [hfirst]
      simp [child?, hlookup, hfirst]

lemma descend?_cons_singleton (name : String) (n : Node) (q : List String) :
    (directory [(name, n)]).descend? (name :: q) = n.descend? q := by
  simp [child?]

lemma descend?_file {bytes : List UInt8} {q : List String} :
    (file bytes).descend? q = some m ↔ q = [] ∧ m = file bytes := by
  cases q with
  | nil => simp [eq_comm]
  | cons name q => simp [child?]

lemma plain_file (bytes : List UInt8) : (file bytes).Plain := by
  intro parts m h
  obtain ⟨rfl, rfl⟩ := descend?_file.1 h
  exact ⟨rfl, List.forall_mem_nil _⟩

lemma plain_singleton {name : String} (hname : FileTree.IsName name) (hn : n.Plain) :
    (directory [(name, n)]).Plain := by
  intro parts m h
  obtain ⟨rfl, rfl⟩ | ⟨r, rfl, hm⟩ := descend?_singleton.1 h
  · exact ⟨rfl, List.forall_mem_nil _⟩
  · obtain ⟨hlink, hnames⟩ := hn r m hm
    exact ⟨hlink, List.forall_mem_cons.2 ⟨hname, hnames⟩⟩

/-- A name in a directory leads to an entry. -/
lemma exists_lookup_of_mem_names {entries : List (String × Node)} {name : String}
    (h : name ∈ (directory entries).names) : ∃ m, entries.lookup name = some m := by
  induction entries with
  | nil => cases h
  | cons e entries ih =>
    rw [List.lookup_cons]
    split
    · exact ⟨e.2, rfl⟩
    · rename_i hne
      obtain heq | hrest := List.mem_cons.1 h
      · exact absurd (beq_iff_eq.2 heq) (by simp [hne])
      · exact ih hrest

lemma mem_names_of_lookup {entries : List (String × Node)} {name : String}
    (h : entries.lookup name = some m) : name ∈ (directory entries).names := by
  induction entries with
  | nil => cases h
  | cons e entries ih =>
    rw [List.lookup_cons] at h
    split at h
    · rename_i heq
      exact List.mem_cons.2 (.inl (beq_iff_eq.1 heq))
    · exact List.mem_cons_of_mem _ (ih h)

/-- Only directories have names in them. -/
lemma exists_of_mem_names {name : String} (h : name ∈ n.names) :
    ∃ entries m, n = directory entries ∧ entries.lookup name = some m := by
  cases n with
  | directory entries =>
    obtain ⟨m, hm⟩ := exists_lookup_of_mem_names h
    exact ⟨entries, m, rfl, hm⟩
  | _ => cases h

end Node

/-! ## Walks that go on -/

namespace FileTree

variable {root : Node} {follow : Bool} {links : Nat} {here : List String}

/-- **A walk goes on from where it has arrived**, and may follow fewer links.

**Proof sketch.** Induction along the walk. A link at its end is followed whether or not links at
the end of the longer walk are to be followed. -/
lemma exists_links_of_walk {todo place : List String} {n : Node}
    (h : walk root true links here todo = .ok (place, n)) :
    ∃ links', ∀ follow more, follow = true ∨ more ≠ [] →
      walk root follow links here (todo ++ more) = walk root follow links' place more := by
  fun_induction walk root true links here todo with
  | case1 links here m hm =>
    obtain ⟨rfl, rfl⟩ := Prod.mk.inj (Except.ok.inj h)
    exact ⟨links, fun _ _ _ => rfl⟩
  | case3 links here name todo entries hentries hdot ih =>
    obtain ⟨links', hlinks⟩ := ih h
    refine ⟨links', fun follow more hmore => ?_⟩
    rw [List.cons_append, walk, hentries, ← hlinks follow more hmore]
    simp only [if_pos hdot]
  | case4 links here name todo entries hentries hdot hparent ih =>
    obtain ⟨links', hlinks⟩ := ih h
    refine ⟨links', fun follow more hmore => ?_⟩
    rw [List.cons_append, walk, hentries, ← hlinks follow more hmore]
    dsimp only
    rw [if_neg hdot, if_pos hparent]
  | case8 links here name todo entries hentries hdot hparent hnull hsize target htarget hlast =>
    simp at hlast
  | case10 here name todo entries hentries hdot hparent hnull hsize target htarget hlast links ih =>
    obtain ⟨links', hlinks⟩ := ih h
    refine ⟨links', fun follow more hmore => ?_⟩
    -- behind this link there is more of the longer walk, or links at its end are followed
    have hgo : ((todo ++ more).isEmpty && !follow) = false := by
      cases follow <;> simp_all
    rw [List.cons_append, walk, hentries, ← hlinks follow more hmore]
    simp only [hdot, hparent, hnull, hsize, htarget, hgo, Bool.false_eq_true, if_false, dite_eq_ite,
      List.append_assoc]
  | case11 links here name todo entries hentries hdot hparent hnull hsize m hm hlookup ih =>
    obtain ⟨links', hlinks⟩ := ih h
    refine ⟨links', fun follow more hmore => ?_⟩
    rw [List.cons_append, walk, hentries, ← hlinks follow more hmore]
    simp only [hdot, hparent, hnull, hsize, hlookup, Bool.false_eq_true, if_false]
  | case2 | case5 | case6 | case7 | case9 | case12 | case13 => cases h

/-- A walk that arrives somewhere has been somewhere before. -/
lemma exists_walk_of_append {todo more : List String} {r : List String × Node}
    (h : walk root true links here (todo ++ more) = .ok r) :
    ∃ s, walk root true links here todo = .ok s := by
  fun_induction walk root true links here todo with
  | case1 => exact ⟨_, rfl⟩
  | case8 => exact ⟨_, rfl⟩
  | case2 links here hnone =>
    cases more with
    | nil => simp [walk, hnone] at h
    | cons name more => simp [walk, hnone] at h
  | case3 links here name todo entries hentries hdot ih =>
    rw [List.cons_append, walk, hentries] at h
    simp only [if_pos hdot] at h
    exact ih h
  | case4 links here name todo entries hentries hdot hparent ih =>
    rw [List.cons_append, walk, hentries] at h
    simp only [if_neg hdot, if_pos hparent] at h
    exact ih h
  | case10 here name todo entries hentries hdot hparent hnull hsize target htarget hlast links ih =>
    rw [List.cons_append, walk, hentries] at h
    simp only [hdot, hparent, hnull, hsize, htarget, Bool.not_true, Bool.and_false,
      Bool.false_eq_true, if_false, ← List.append_assoc] at h
    exact ih h
  | case11 here links name todo entries hentries hdot hparent hnull hsize m hm hlookup ih =>
    rw [List.cons_append, walk, hentries] at h
    simp only [hdot, hparent, hnull, hsize, hlookup, Bool.false_eq_true, if_false] at h
    exact ih h
  | case7 links here name todo entries hentries hdot hparent hnull hsize hlookup =>
    rw [List.cons_append, walk, hentries] at h
    simp only [hdot, hparent, hnull, hsize, hlookup, Bool.false_eq_true, if_false] at h
    cases h
  | case9 here name todo entries hentries hdot hparent hnull hsize target htarget hlast =>
    rw [List.cons_append, walk, hentries] at h
    simp only [hdot, hparent, hnull, hsize, htarget, Bool.not_true, Bool.and_false,
      Bool.false_eq_true, if_false] at h
    cases h
  | case5 | case6 | case12 | case13 =>
    rw [List.cons_append, walk] at h
    simp_all

/-! ## Places below -/

/-- None of these names has a meaning of its own. -/
def Proper (names : List String) : Prop := ∀ name ∈ names, name ∉ ["", ".", ".."]

lemma Proper.append {q r : List String} (hq : Proper q) (hr : Proper r) : Proper (q ++ r) :=
  fun name hname => (List.mem_append.1 hname).elim (hq name) (hr name)

/-- Below a place without links, a walk leads where the names lead, and nowhere else.

**Proof sketch.** Induction along the names. Names that are too long lead nowhere, and neither does
what lies below a file. -/
lemma toOption_walk {n : Node} (hplain : n.Plain) (hn : root.descend? here = some n)
    {q : List String} (hq : Proper q) :
    (walk root follow links here q).toOption = (n.descend? q).map fun m => (here ++ q, m) := by
  induction q generalizing here n with
  | nil => simp [walk_nil hn, Except.toOption]
  | cons name q ih =>
    have hproper : name ∉ ["", ".", ".."] := hq name (by simp)
    cases n with
    | directory entries =>
      rw [Node.descend?_cons]
      cases hm : entries.lookup name with
      | none =>
        have hchild : (Node.directory entries).child? name = none := hm
        rw [hchild, toOption_walk_missing hn hproper hm]
        rfl
      | some m =>
        have hchild : (Node.directory entries).child? name = some m := hm
        have hdown : (Node.directory entries).descend? [name] = some m := by simp [hchild]
        have hname : IsName name := (hplain [name] m hdown).2 name (by simp)
        have hplace : root.descend? (here ++ [name]) = some m := by
          rw [Node.descend?_append, hn]
          exact hdown
        rw [walk_cons hn hname hm (hplain.descend? hdown).isLink, hchild,
          ih (hplain.descend? hdown) hplace fun other hother => hq other (by simp [hother])]
        simp
    | _ =>
      rw [walk_notADirectory hn rfl]
      rfl

/-- Below a place without links, a walk along names may lead nowhere, but no name is in its way. -/
lemma walk_ne_nameTooLong {n : Node} (hplain : n.Plain) (hn : root.descend? here = some n)
    {q : List String} (hq : ∀ name ∈ q, IsName name) :
    walk root follow links here q ≠ .error .nameTooLong := by
  induction q generalizing here n with
  | nil => simp [walk_nil hn]
  | cons name q ih =>
    obtain ⟨hname, hrest⟩ := List.forall_mem_cons.1 hq
    cases n with
    | directory entries =>
      cases hm : entries.lookup name with
      | none => simp [walk_missing hn hname hm]
      | some m =>
        have hdown : (Node.directory entries).descend? [name] = some m := by simpa [Node.child?]
        have hplace : root.descend? (here ++ [name]) = some m := by
          rw [Node.descend?_append, hn]
          exact hdown
        rw [walk_cons hn hname hm (hplain.descend? hdown).isLink]
        exact ih (hplain.descend? hdown) hplace hrest
    | _ => simp [walk_notADirectory hn rfl]

section Below

variable {t : FileTree} {p : Path} {place : List String} {n : Node} {q : List String}
  (hp : t.resolve true p = .ok (place, n))
include hp

/-- The path goes on from where it leads. -/
lemma exists_links_of_resolve : t.root.descend? place = some n ∧
    ∃ links', ∀ follow q, follow = true ∨ q ≠ [] →
      t.resolve follow (p.down q) =
        if (p.down q).hasNull then .error .notFound
        else if (p.down q).text.utf8ByteSize ≥ pathLimit then .error .nameTooLong
        else walk t.root follow links' place q := by
  unfold resolve at hp
  split at hp
  · cases hp
  split at hp
  · cases hp
  obtain ⟨links', hlinks⟩ := exists_links_of_walk hp
  refine ⟨?_, links', fun follow q hfollow => by rw [← hlinks follow q hfollow]; rfl⟩
  have hend := hlinks true [] (.inl rfl)
  rw [List.append_nil, hp, walk] at hend
  split at hend
  · rename_i m hm
    obtain ⟨-, rfl⟩ := Prod.mk.inj (Except.ok.inj hend)
    exact hm
  · cases hend

/-- A path with the character U+0000 does not go along the names of entries. -/
lemma descend?_of_hasNull (hplain : n.Plain) (hnull : (p.down q).hasNull = true) :
    n.descend? q = none := by
  have hp : p.hasNull = false := by
    by_contra htrue
    rw [Bool.not_eq_false] at htrue
    simp [resolve, htrue] at hp
  cases hq : n.descend? q with
  | none => rfl
  | some m =>
    rw [Path.hasNull, Path.down, List.any_append] at hnull
    rw [Path.hasNull] at hp
    rw [hp, Bool.false_or] at hnull
    obtain ⟨name, hname, hcontains⟩ := List.any_eq_true.1 hnull
    exact absurd (List.contains_iff_mem.1 hcontains) ((hplain q m hq).2 name hname).nullFree

/-- **Where the paths below a place lead.** -/
lemma resolve_down (hplain : n.Plain) (hq : Proper q) (hfollow : follow = true ∨ q ≠ []) :
    (t.resolve follow (p.down q)).toOption =
      if (p.down q).text.utf8ByteSize < pathLimit then
        (n.descend? q).map fun m => (place ++ q, m)
      else none := by
  obtain ⟨hplace, links', hlinks⟩ := exists_links_of_resolve hp
  rw [hlinks follow q hfollow]
  split
  · rename_i hnull
    rw [descend?_of_hasNull hp hplain hnull]
    split <;> rfl
  split
  · rename_i hlong
    rw [if_neg (Nat.not_lt_of_le hlong)]
    rfl
  · rename_i hshort
    rw [if_pos (Nat.lt_of_not_le hshort)]
    exact toOption_walk hplain hplace hq

/-- It can be told what a path below a place leads to, if it is short and goes along names. -/
lemma canTest_down (hplain : n.Plain) (hq : ∀ name ∈ q, IsName name)
    (hshort : (p.down q).text.utf8ByteSize < pathLimit) : t.canTest (p.down q) = true := by
  obtain ⟨hplace, links', hlinks⟩ := exists_links_of_resolve hp
  have hwalk : walk t.root true links' place q ≠ .error .nameTooLong :=
    walk_ne_nameTooLong hplain hplace hq
  rw [canTest, hlinks true q (.inl rfl), if_neg (Nat.not_le_of_lt hshort)]
  split
  · rename_i hlong
    split at hlong
    · cases hlong
    · exact absurd hlong hwalk
  · rfl

end Below

end FileTree

/-! ## Views -/

/-- What is found at the places below a place, told by the names that lead there. -/
abbrev View := List String → Option Node

namespace View

/-- The view below the place that `d` leads to. -/
def under (view : View) (d : List String) : View := fun q => view (d ++ q)

/-- The names in the directory that is viewed. -/
def names (view : View) : List String := ((view []).map Node.names).getD []

/-- Is a directory viewed? -/
def isDirectory (view : View) : Bool := (view []).any Node.isDirectory

/-- Is the entry called `name` a directory, in the directory that is viewed? It need not be found
itself, which asks for a path that is not too long. -/
def listsDirectory (view : View) (name : String) : Bool :=
  ((view []).bind (·.child? name)).any Node.isDirectory

variable {view : View}

@[simp] lemma under_under (d e : List String) : (view.under d).under e = view.under (d ++ e) := by
  funext q
  simp only [under, List.append_assoc]

/-- Whatever the directories list is found. -/
def Full (view : View) : Prop :=
  ∀ q n, view q = some n → ∀ name ∈ n.names, (view (q ++ [name])).isSome = true

lemma Full.under (h : view.Full) (d : List String) : (view.under d).Full := by
  intro q n hn name hname
  rw [View.under, ← List.append_assoc]
  exact h (d ++ q) n hn name hname

end View

lemma Node.full_descend? (n : Node) : View.Full n.descend? := by
  intro q m hm name hname
  obtain ⟨entries, k, rfl, hlookup⟩ := exists_of_mem_names hname
  simp [descend?_append, hm, child?, hlookup]

/-- What is found below an entry at the path `p`. What has too long a path is not found. -/
def Node.viewAt (n : Node) (p : Path) : View := fun q =>
  if (p.down q).text.utf8ByteSize < FileTree.pathLimit then n.descend? q else none

/-- If no path is too long, everything is found. -/
lemma Node.viewAt_eq_descend? {n : Node} {p : Path}
    (h : ∀ q m, n.descend? q = some m → (p.down q).text.utf8ByteSize < FileTree.pathLimit) :
    n.viewAt p = n.descend? := by
  funext q
  rw [viewAt]
  split
  · rfl
  · rename_i hlong
    cases hq : n.descend? q with
    | none => rfl
    | some m => exact absurd (h q m hq) hlong

/-- A path without components is short. -/
lemma Path.utf8ByteSize_text_of_parts_eq_nil {p : Path} (h : p.parts = []) :
    p.text.utf8ByteSize < FileTree.pathLimit := by
  obtain ⟨anchor, parts⟩ := p
  obtain rfl : parts = [] := h
  cases anchor <;> decide

/-- The length limit does not let a path pass and refuse what it starts with. -/
lemma Path.utf8ByteSize_text_down_lt {p : Path} {q r : List String}
    (h : (p.down (q ++ r)).text.utf8ByteSize < FileTree.pathLimit) :
    (p.down q).text.utf8ByteSize < FileTree.pathLimit := by
  by_cases hparts : (p.down q).parts = []
  · exact utf8ByteSize_text_of_parts_eq_nil hparts
  · have hmore : (p.down (q ++ r)).parts ≠ [] := by
      rw [← down_down]
      exact List.append_ne_nil_of_left_ne_nil hparts r
    rw [text_of_ne_nil hmore, String.utf8ByteSize_append, ← down_down] at h
    rw [text_of_ne_nil hparts, String.utf8ByteSize_append]
    exact Nat.lt_of_le_of_lt
      (Nat.add_le_add_left (utf8ByteSize_intercalate_append_le (p.down q).parts r) _) h

/-- A short path has few components. -/
lemma Path.length_lt_of_down {p : Path} {q : List String} (hq : ∀ name ∈ q, name ≠ "")
    (h : (p.down q).text.utf8ByteSize < FileTree.pathLimit) : q.length < FileTree.pathLimit := by
  by_cases hparts : (p.down q).parts = []
  · obtain rfl : q = [] := (List.append_eq_nil_iff.1 hparts).2
    decide
  · have hall : q.filter (· ≠ "") = q := List.filter_eq_self.2 (by simpa using hq)
    have hcount := length_filter_le_utf8ByteSize (p.parts ++ q)
    rw [List.filter_append, List.length_append, hall] at hcount
    rw [text_of_ne_nil hparts, String.utf8ByteSize_append] at h
    change p.anchor.text.utf8ByteSize + ("/".intercalate (p.parts ++ q)).utf8ByteSize < _ at h
    omega

lemma Node.viewAt_eq_some_iff {n m : Node} {p : Path} {q : List String} :
    n.viewAt p q = some m ↔
      (p.down q).text.utf8ByteSize < FileTree.pathLimit ∧ n.descend? q = some m := by
  rw [viewAt]
  split
  · rename_i hshort
    exact (and_iff_right hshort).symm
  · rename_i hlong
    constructor
    · intro h
      cases h
    · rintro ⟨hshort, -⟩
      exact absurd hshort hlong

namespace FileTree

/-- The tree shows this view below the path `p`: paths along names lead where the view says, to a
link or not. Whatever is found is found in a directory, has a name, and is not too far away. -/
structure Shows (t : FileTree) (p : Path) (view : View) : Prop where
  find {q : List String} : Proper q → t.find? (p.down q) = view q
  contains {q : List String} : Proper q → q ≠ [] → t.contains (p.down q) = (view q).isSome
  closed {q r : List String} {name : String} {n : Node} : view (q ++ name :: r) = some n →
    ∃ entries m, view q = some (.directory entries) ∧ entries.lookup name = some m ∧
      view (q ++ [name]) = some m
  isLink {q : List String} {name : String} {n m : Node} : view q = some n →
    n.child? name = some m → m.isLink = false
  proper {q : List String} {n : Node} : view q = some n → ∀ name ∈ n.names, Proper [name]
  length_lt {q : List String} {n : Node} : view q = some n → q.length < pathLimit

/-- A view from further down. -/
lemma Shows.under {t : FileTree} {p : Path} {view : View} (h : t.Shows p view) {q : List String}
    (hq : Proper q) : t.Shows (p.down q) (view.under q) where
  find hr := by
    rw [Path.down_down]
    exact h.find (hq.append hr)
  contains hr hne := by
    rw [Path.down_down]
    exact h.contains (hq.append hr) (List.append_ne_nil_of_right_ne_nil _ hne)
  closed hr := by
    rw [View.under, ← List.append_assoc] at hr
    obtain ⟨entries, m, hq, hm, hfound⟩ := h.closed hr
    exact ⟨entries, m, hq, hm, by rwa [View.under, ← List.append_assoc]⟩
  isLink hn hm := h.isLink hn hm
  proper hr := h.proper hr
  length_lt hr := by
    have hlength := h.length_lt hr
    rw [List.length_append] at hlength
    omega

/-- **The view of a place without links.** -/
lemma shows_of_resolve {t : FileTree} {p : Path} {place : List String} {n : Node}
    (hp : t.resolve true p = .ok (place, n)) (hplain : n.Plain) : t.Shows p (n.viewAt p) where
  find hq := by
    rw [find?, resolve_down hp hplain hq (.inl rfl), Node.viewAt]
    split
    · simp [Option.map_map, Function.comp_def]
    · rfl
  contains hq hne := by
    rw [FileTree.contains, resolve_down hp hplain hq (.inr hne), Node.viewAt]
    split <;> simp
  closed := by
    intro q r name m hm
    obtain ⟨hshort, hdown⟩ := Node.viewAt_eq_some_iff.1 hm
    rw [Node.descend?_append] at hdown
    obtain ⟨k, hk, hrest⟩ := Option.bind_eq_some_iff.1 hdown
    obtain ⟨l, hl, -⟩ := Option.bind_eq_some_iff.1 (Node.descend?_cons k name r ▸ hrest)
    obtain ⟨entries, rfl, hlookup⟩ := Node.exists_directory_of_child? hl
    rw [← List.singleton_append, ← List.append_assoc] at hshort
    have hnext : n.descend? (q ++ [name]) = some l := by
      simpa [Node.descend?_append, hk] using hl
    have hfront := Path.utf8ByteSize_text_down_lt hshort
    exact ⟨entries, l, Node.viewAt_eq_some_iff.2 ⟨Path.utf8ByteSize_text_down_lt hfront, hk⟩,
      hlookup, Node.viewAt_eq_some_iff.2 ⟨hfront, hnext⟩⟩
  isLink := by
    intro q name k m hk hm
    obtain ⟨-, hdown⟩ := Node.viewAt_eq_some_iff.1 hk
    have hchild : k.descend? [name] = some m := by simpa using hm
    exact ((hplain.descend? hdown).descend? hchild).isLink
  proper := by
    intro q m hm name hname other hother
    obtain rfl := List.mem_singleton.1 hother
    obtain ⟨-, hdown⟩ := Node.viewAt_eq_some_iff.1 hm
    obtain ⟨entries, k, rfl, hlookup⟩ := Node.exists_of_mem_names hname
    have hchild : (Node.directory entries).descend? [other] = some k := by
      simpa [Node.child?] using hlookup
    exact ((hplain.descend? hdown [other] k hchild).2 other (by simp)).1
  length_lt := by
    intro q m hm
    obtain ⟨hshort, hdown⟩ := Node.viewAt_eq_some_iff.1 hm
    have hq : ∀ name ∈ q, name ≠ "" := by
      rintro name hname rfl
      exact ((hplain q m hdown).2 "" hname).1 (by simp)
    exact Path.length_lt_of_down hq hshort

end FileTree

end WorkflowLint
