import Mathlib.Data.Nat.Find
import WorkflowLint.Proofs.PlainTree

/-!
# Paths without links

The absolute path of a file is found by rewriting a path link by link. While this goes on, the path
that has been rewritten so far spells the place where a walk along the given path would stand, by
steps back and names alone. So both arrive at the same place, on one condition: every link that the
walk follows has to be seen. A link is not seen if its own path, as it is spelled by then, is too
long for the system to answer for it; then it is kept, and what the links in the path come to need
not be a path without links.

## Main definitions

* `WorkflowLint.FileTree.withoutLinks` — rewriting a path without an eye on circles.
* `WorkflowLint.FileTree.Spells` — a path without links spells a place.
* `WorkflowLint.FileTree.Asks` — the paths that the system is asked for.
* `WorkflowLint.FileTree.HidesLink` — there is a link at one of them, and it is not seen.

## Main results

* `WorkflowLint.FileTree.withoutLinks_append` — a path is rewritten from left to right.
* `WorkflowLint.FileTree.replaceLinks_of_withoutLinks` — no circles if rewriting comes to an end.
* `WorkflowLint.FileTree.withoutLinks_of_walk` — rewriting ends where the walk ends.
* `WorkflowLint.FileTree.canonical?_of_resolve` — the absolute path of what a path leads to.
* `WorkflowLint.FileTree.canonical?_down` — the absolute paths below a place without links.
-/

set_option autoImplicit false

namespace WorkflowLint

/-- The way to a directory leads through directories. -/
lemma Node.exists_directory_take {n : Node} {parts : List String} {entries : List (String × Node)}
    (h : n.descend? parts = some (.directory entries)) (k : Nat) :
    ∃ entries, n.descend? (parts.take k) = some (.directory entries) := by
  rw [← List.take_append_drop k parts, descend?_append] at h
  obtain ⟨m, hm, hrest⟩ := Option.bind_eq_some_iff.1 h
  cases hdrop : parts.drop k with
  | nil =>
    rw [hdrop] at hrest
    obtain rfl := Option.some.inj hrest
    exact ⟨entries, hm⟩
  | cons name rest =>
    rw [hdrop, descend?_cons] at hrest
    obtain ⟨child, hchild, -⟩ := Option.bind_eq_some_iff.1 hrest
    obtain ⟨entries, rfl, -⟩ := exists_directory_of_child? hchild
    exact ⟨entries, hm⟩

namespace FileTree

variable {t : FileTree} {p q x : Path} {name target : String} {todo more here place : List String}
  {n : Node} {links nesting : Nat}

/-! ## The steps -/

/-- The path `p`, gone on along `todo`, with links replaced by their targets, at most `nesting` of
them within each other. A circle never ends, and so it is too much for any number. -/
def withoutLinks (t : FileTree) (nesting : Nat) (p : Path) : List String → Option Path
  | [] => some p
  | name :: todo =>
    if name == "" || name == "." then withoutLinks t nesting p todo
    else if name == ".." then withoutLinks t nesting p.back todo
    else
      match t.target? (p.extend name) with
      | none => withoutLinks t nesting (p.extend name) todo
      | some target =>
        match nesting with
        | 0 => none
        | nesting + 1 => do
          let q ← withoutLinks t nesting (targetStart p target) (targetParts target)
          withoutLinks t (nesting + 1) q todo
termination_by todo => (nesting, todo.length)

@[simp] lemma withoutLinks_nil : t.withoutLinks nesting p [] = some p := by
  rw [withoutLinks]

lemma withoutLinks_dot (h : (name == "" || name == ".") = true) :
    t.withoutLinks nesting p (name :: todo) = t.withoutLinks nesting p todo := by
  rw [withoutLinks, if_pos h]

lemma withoutLinks_back :
    t.withoutLinks nesting p (".." :: todo) = t.withoutLinks nesting p.back todo := by
  rw [withoutLinks, if_neg (by decide), if_pos (by decide)]

section Name

variable (hproper : name ∉ ["", ".", ".."])
include hproper

/-- What is not seen to be a link is kept. -/
lemma withoutLinks_keep (h : t.target? (p.extend name) = none) :
    t.withoutLinks nesting p (name :: todo) = t.withoutLinks nesting (p.extend name) todo := by
  simp only [List.mem_cons, List.not_mem_nil, or_false, not_or] at hproper
  rw [withoutLinks]
  simp [hproper, h]

/-- A link is replaced by its target, from which the links have been removed. -/
lemma withoutLinks_link (h : t.target? (p.extend name) = some target) :
    t.withoutLinks (nesting + 1) p (name :: todo) =
      (t.withoutLinks nesting (targetStart p target) (targetParts target)).bind fun q =>
        t.withoutLinks (nesting + 1) q todo := by
  simp only [List.mem_cons, List.not_mem_nil, or_false, not_or] at hproper
  rw [withoutLinks]
  simp [hproper, h, Option.bind_eq_bind]

/-- A link is not replaced if too many are being replaced. -/
lemma withoutLinks_zero (h : t.target? (p.extend name) = some target) :
    t.withoutLinks 0 p (name :: todo) = none := by
  simp only [List.mem_cons, List.not_mem_nil, or_false, not_or] at hproper
  rw [withoutLinks]
  simp [hproper, h]

end Name

/-- **A path is rewritten from left to right.** -/
lemma withoutLinks_append : t.withoutLinks nesting p (todo ++ more) =
    (t.withoutLinks nesting p todo).bind fun q => t.withoutLinks nesting q more := by
  induction todo generalizing p with
  | nil => rw [withoutLinks_nil, List.nil_append, Option.bind_some]
  | cons name todo ih =>
    rw [List.cons_append]
    by_cases hdot : (name == "" || name == ".") = true
    · rw [withoutLinks_dot hdot, withoutLinks_dot hdot, ih]
    by_cases hback : (name == "..") = true
    · obtain rfl := beq_iff_eq.1 hback
      rw [withoutLinks_back, withoutLinks_back, ih]
    have hproper : name ∉ ["", ".", ".."] := proper_of_tests hdot hback
    cases htarget : t.target? (p.extend name) with
    | none => rw [withoutLinks_keep hproper htarget, withoutLinks_keep hproper htarget, ih]
    | some target =>
      cases nesting with
      | zero =>
        rw [withoutLinks_zero hproper htarget, withoutLinks_zero hproper htarget, Option.bind_none]
      | succ nesting =>
        rw [withoutLinks_link hproper htarget, withoutLinks_link hproper htarget, Option.bind_assoc]
        simp only [ih]

/-- What can be rewritten can be rewritten if more links may be replaced within each other. -/
lemma withoutLinks_succ (h : t.withoutLinks nesting p todo = some q) :
    t.withoutLinks (nesting + 1) p todo = some q := by
  fun_induction withoutLinks t nesting p todo generalizing q with
  | case1 => rwa [withoutLinks_nil]
  | case2 nesting p name todo hdot ih => rw [withoutLinks_dot hdot, ih h]
  | case3 nesting p name todo hdot hback ih =>
    obtain rfl := beq_iff_eq.1 hback
    rw [withoutLinks_back, ih h]
  | case4 nesting p name todo hdot hback htarget ih =>
    have hproper : name ∉ ["", ".", ".."] := proper_of_tests hdot hback
    rw [withoutLinks_keep hproper htarget, ih h]
  | case5 => cases h
  | case6 p name todo hdot hback target htarget nesting ihtarget ih =>
    have hproper : name ∉ ["", ".", ".."] := proper_of_tests hdot hback
    obtain ⟨r, hr, hrest⟩ := Option.bind_eq_some_iff.1 h
    rw [withoutLinks_link hproper htarget, ihtarget hr, Option.bind_some, ih r hrest]

/-! ## Circles -/

lemma withoutLinks_mono {k : Nat} (hle : nesting ≤ k) (h : t.withoutLinks nesting p todo = some q) :
    t.withoutLinks k p todo = some q :=
  Nat.le_induction h (fun _ _ => withoutLinks_succ) k hle

/-- There is a least number of links within each other that does for a path. -/
lemma exists_least_nesting (h : t.withoutLinks nesting p todo = some q) :
    ∃ k ≤ nesting, t.withoutLinks k p todo = some q ∧ ∀ j < k, t.withoutLinks j p todo = none := by
  have hex : ∃ k, (t.withoutLinks k p todo).isSome := ⟨nesting, by simp [h]⟩
  have hle : Nat.find hex ≤ nesting := Nat.find_min' hex (by simp [h])
  obtain ⟨r, hr⟩ := Option.isSome_iff_exists.1 (Nat.find_spec hex)
  obtain rfl := Option.some.inj ((withoutLinks_mono hle hr).symm.trans h)
  exact ⟨Nat.find hex, hle, hr, fun j hj => by simpa using Nat.find_min hex hj⟩

/-- With less than `nesting` links within each other, the target of the link `link` cannot be
rewritten. -/
def Exceeds (t : FileTree) (nesting : Nat) (link : Path) : Prop :=
  ∀ target, t.target? link = some target →
    ∀ k < nesting, t.withoutLinks k (targetStart link.parent target) (targetParts target) = none

lemma parent_extend : (p.extend name).parent = p := by
  simp [Path.parent, Path.extend]

section Pending

variable {pending : List Path}

lemma replaceLinks_dot (h : (name == "" || name == ".") = true) :
    t.replaceLinks nesting pending p (name :: todo) = t.replaceLinks nesting pending p todo := by
  rw [replaceLinks, if_pos h]

lemma replaceLinks_back : t.replaceLinks nesting pending p (".." :: todo) =
    t.replaceLinks nesting pending p.back todo := by
  rw [replaceLinks, if_neg (by decide), if_pos (by decide)]

variable (hproper : name ∉ ["", ".", ".."])
include hproper

lemma replaceLinks_keep (h : t.target? (p.extend name) = none) :
    t.replaceLinks nesting pending p (name :: todo) =
      t.replaceLinks nesting pending (p.extend name) todo := by
  simp only [List.mem_cons, List.not_mem_nil, or_false, not_or] at hproper
  rw [replaceLinks]
  simp [hproper, h]

lemma replaceLinks_link (h : t.target? (p.extend name) = some target)
    (hnew : p.extend name ∉ pending)
    (hq : t.replaceLinks nesting (p.extend name :: pending) (targetStart p target)
      (targetParts target) = .ok q) :
    t.replaceLinks (nesting + 1) pending p (name :: todo) =
      t.replaceLinks (nesting + 1) pending q todo := by
  simp only [List.mem_cons, List.not_mem_nil, or_false, not_or] at hproper
  rw [replaceLinks]
  simp [hproper, h, hnew, hq]

end Pending

/-- **There are no circles where rewriting a path comes to an end.**

**Proof sketch.** By induction on the number of links within each other. There is a least number
that does for the target of a link, and with less it cannot be rewritten. So the link is not met
again while its target is being rewritten: it would have to be replaced with less. -/
lemma replaceLinks_of_withoutLinks {limit : Nat} {pending : List Path}
    (h : t.withoutLinks nesting p todo = some q) (hle : nesting ≤ limit)
    (hpending : ∀ link ∈ pending, t.Exceeds nesting link) :
    t.replaceLinks limit pending p todo = .ok q := by
  induction nesting using Nat.strong_induction_on generalizing limit pending p todo q with
  | _ nesting ihnesting =>
    induction todo generalizing p with
    | nil =>
      rw [withoutLinks_nil] at h
      rw [replaceLinks, Option.some.inj h]
    | cons name todo ih =>
      by_cases hdot : (name == "" || name == ".") = true
      · rw [withoutLinks_dot hdot] at h
        rw [replaceLinks_dot hdot, ih h]
      by_cases hback : (name == "..") = true
      · obtain rfl := beq_iff_eq.1 hback
        rw [withoutLinks_back] at h
        rw [replaceLinks_back, ih h]
      have hproper : name ∉ ["", ".", ".."] := proper_of_tests hdot hback
      cases htarget : t.target? (p.extend name) with
      | none =>
        rw [withoutLinks_keep hproper htarget] at h
        rw [replaceLinks_keep hproper htarget, ih h]
      | some target =>
        obtain _ | nesting := nesting
        · cases (withoutLinks_zero hproper htarget).symm.trans h
        rw [withoutLinks_link hproper htarget] at h
        obtain ⟨r, hr, hrest⟩ := Option.bind_eq_some_iff.1 h
        have hnew : p.extend name ∉ pending := by
          intro hmem
          have hnone := hpending _ hmem target htarget nesting (Nat.lt_succ_self _)
          rw [parent_extend, hr] at hnone
          cases hnone
        obtain ⟨k, hk, hleast, hless⟩ := exists_least_nesting hr
        obtain ⟨limit, rfl⟩ := Nat.exists_eq_add_of_le' (Nat.le_trans (Nat.succ_pos _) hle)
        have hfirst : t.replaceLinks limit (p.extend name :: pending) (targetStart p target)
            (targetParts target) = .ok r := by
          refine ihnesting k (Nat.lt_succ_of_le hk) hleast
            (Nat.le_trans hk (Nat.le_of_succ_le_succ hle)) (List.forall_mem_cons.2 ⟨?_, ?_⟩)
          · intro other hother j hj
            obtain rfl := Option.some.inj (htarget.symm.trans hother)
            rw [parent_extend, hless j hj]
          · intro link hlink other hother j hj
            exact hpending link hlink other hother j (Nat.lt_of_lt_of_le hj (Nat.le_succ_of_le hk))
        rw [replaceLinks_link hproper htarget hnew hfirst]
        exact ih hrest

/-- The absolute path of what a path is rewritten to. -/
lemma canonical?_of_withoutLinks (h : t.withoutLinks nestingLimit x.start x.parts = some q) :
    t.canonical? x = some (t.absolute q) := by
  rw [canonical?, replaceLinks_of_withoutLinks h (Nat.le_refl _) (List.forall_mem_nil _)]

/-- Absolute paths start at the root. -/
lemma anchor_of_canonical? {f : Path} (h : t.canonical? x = some f) : f.anchor = .root := by
  unfold canonical? at h
  split at h
  · rw [← Option.some.inj h, absolute]
  · cases h
  · split at h
    · cases h
    · rw [← Option.some.inj h, absolute]

/-! ## Paths that spell a place -/

/-- The path `p` spells the place `here`: it goes some steps back from where it starts, and then
down along names. It starts at a directory. -/
structure Spells (t : FileTree) (p : Path) (here : List String) : Prop where
  parts : ∃ k names, p.parts = List.replicate k ".." ++ names ∧ (∀ name ∈ names, IsName name) ∧
    here = (t.base p).take ((t.base p).length - k) ++ names
  base : ∃ entries, t.root.descend? (t.base p) = some (.directory entries)

lemma base_start (p : Path) : t.base p.start = t.base p := by
  obtain ⟨anchor, parts⟩ := p
  cases anchor <;> rfl

lemma spells_start (h : ∃ entries, t.root.descend? (t.base p) = some (.directory entries)) :
    t.Spells p.start (t.base p) where
  parts := ⟨0, [], rfl, List.forall_mem_nil _, by rw [base_start]; simp⟩
  base := by rwa [base_start]

/-- One more step back. -/
lemma dropLast_take_sub (k : Nat) :
    (here.take (here.length - k)).dropLast = here.take (here.length - (k + 1)) := by
  rw [List.dropLast_eq_take, List.take_take, List.length_take]
  congr 1
  omega

/-- Some steps back, and then down along names. -/
lemma foldl_stepFrom (k : Nat) (names : List String) (hnames : ".." ∉ names) :
    (List.replicate k ".." ++ names).foldl stepFrom here =
      here.take (here.length - k) ++ names := by
  have hdown : ∀ here : List String, names.foldl stepFrom here = here ++ names := by
    induction names with
    | nil => simp
    | cons name names ih =>
      rw [List.mem_cons, not_or] at hnames
      intro here
      rw [List.foldl_cons, stepFrom, if_neg fun heq => hnames.1 (beq_iff_eq.1 heq).symm,
        ih hnames.2, List.append_assoc, List.singleton_append]
  have hback : (List.replicate k "..").foldl stepFrom here = here.take (here.length - k) := by
    induction k with
    | zero => rw [List.replicate_zero, List.foldl_nil, Nat.sub_zero, List.take_length]
    | succ k ih =>
      rw [List.replicate_succ', List.foldl_append, ih, List.foldl_cons, List.foldl_nil, stepFrom,
        if_pos (by decide), dropLast_take_sub]
  rw [List.foldl_append, hback, hdown]

/-- A path of names from the root is absolute. -/
lemma absolute_root (h : ".." ∉ place) : t.absolute ⟨.root, place⟩ = ⟨.root, place⟩ := by
  have hdown : (List.replicate 0 ".." ++ place).foldl stepFrom [] = _ := foldl_stepFrom 0 place h
  exact congrArg (Path.mk .root) hdown

/-- A path that spells a place is made absolute without a look at the tree. -/
lemma Spells.absolute_eq (h : t.Spells p here) : t.absolute p = ⟨.root, here⟩ := by
  obtain ⟨k, names, hparts, hnames, rfl⟩ := h.parts
  rw [absolute, hparts, foldl_stepFrom]
  exact fun hmem => (hnames ".." hmem).proper (by simp)

lemma Spells.extend (h : t.Spells p here) (hname : IsName name) :
    t.Spells (p.extend name) (here ++ [name]) where
  parts := by
    obtain ⟨k, names, hparts, hnames, rfl⟩ := h.parts
    refine ⟨k, names ++ [name], ?_, List.forall_mem_append.2 ⟨hnames, by simpa using hname⟩, ?_⟩
    · rw [Path.extend, hparts, List.append_assoc]
    · exact List.append_assoc _ _ _
  base := h.base

/-- A step back is taken at the end of the names, or in front of them if there are none. -/
lemma Spells.back (h : t.Spells p here) : t.Spells p.back here.dropLast := by
  obtain ⟨k, names, hparts, hnames, rfl⟩ := h.parts
  obtain rfl | ⟨names, last, rfl⟩ := List.eq_nil_or_concat' names
  · rw [List.append_nil] at hparts
    rw [List.append_nil, dropLast_take_sub]
    have hextend : t.Spells (p.extend "..")
        ((t.base p).take ((t.base p).length - (k + 1))) :=
      ⟨⟨k + 1, [], by simp [Path.extend, hparts, List.replicate_succ'], List.forall_mem_nil _,
        (List.append_nil _).symm⟩, h.base⟩
    rw [Path.back, hparts]
    cases k with
    | zero =>
      rw [List.replicate_zero, List.getLast?_nil]
      dsimp only
      split
      · rename_i habsolute
        have hbase : t.base p = [] := if_pos habsolute
        exact ⟨⟨0, [], hparts, List.forall_mem_nil _, by simp [hbase]⟩, h.base⟩
      · exact hextend
    | succ k =>
      have hlast : (List.replicate (k + 1) "..").getLast? = some ".." := by
        simp [List.getLast?_replicate]
      rw [hlast]
      exact hextend
  · rw [← List.append_assoc, List.dropLast_concat]
    rw [← List.append_assoc] at hparts
    obtain ⟨hinit, hlast⟩ := List.forall_mem_append.1 hnames
    have hne : (last == "..") = false := by
      refine beq_false_of_ne ?_
      rintro rfl
      exact (hlast ".." List.mem_cons_self).proper (by simp)
    rw [Path.back, hparts, List.getLast?_concat]
    simp only [hne, Bool.false_eq_true, if_false, List.dropLast_concat]
    exact ⟨⟨k, names, rfl, hinit, rfl⟩, h.base⟩

/-- A walk along a path that spells a place comes by that place. -/
lemma Spells.walk_eq {follow : Bool} (h : t.Spells p here) (hhere : t.root.descend? here = some n)
    (hn : n.isLink = false) (todo : List String) :
    walk t.root follow links (t.base p) (p.parts ++ todo) =
      walk t.root follow links here todo := by
  obtain ⟨k, names, hparts, hnames, rfl⟩ := h.parts
  obtain ⟨entries, hbase⟩ := h.base
  have hback : ∀ (k : Nat) (todo : List String),
      walk t.root follow links (t.base p) (List.replicate k ".." ++ todo) =
        walk t.root follow links ((t.base p).take ((t.base p).length - k)) todo := by
    intro k todo
    induction k generalizing todo with
    | zero => simp
    | succ k ih =>
      obtain ⟨entries, hdirectory⟩ :=
        Node.exists_directory_take hbase ((t.base p).length - k)
      rw [List.replicate_succ', List.append_assoc, ih, List.singleton_append, walk, hdirectory]
      simp [dropLast_take_sub]
  rw [hparts, List.append_assoc, hback, walk_append hn hnames hhere]

/-! ## Links that are seen -/

/-- The system is asked for the path `q` while links are replaced behind a path. -/
inductive Asks (t : FileTree) (q : Path) : Path → List String → Prop
  | here {p : Path} {name : String} {todo : List String} : name ∉ ["", ".", ".."] →
      q = p.extend name → Asks t q p (name :: todo)
  | dot {p : Path} {name : String} {todo : List String} : (name == "" || name == ".") = true →
      Asks t q p todo → Asks t q p (name :: todo)
  | back {p : Path} {todo : List String} : Asks t q p.back todo → Asks t q p (".." :: todo)
  | keep {p : Path} {name : String} {todo : List String} : name ∉ ["", ".", ".."] →
      t.target? (p.extend name) = none → Asks t q (p.extend name) todo → Asks t q p (name :: todo)
  | link {p : Path} {name target : String} {todo : List String} : name ∉ ["", ".", ".."] →
      t.target? (p.extend name) = some target →
      Asks t q (targetStart p target) (targetParts target ++ todo) → Asks t q p (name :: todo)

/-- There is a link at the end of the path `q`, however long the path is. -/
def IsLink (t : FileTree) (q : Path) : Prop :=
  ∃ place target, walk t.root false linkLimit (t.base q) q.parts = .ok (place, .link target)

/-- A link in the path `x`, or in what its links come to, is not seen, because its path is too long
by then. -/
def HidesLink (t : FileTree) (x : Path) : Prop :=
  ∃ q, t.Asks q x.start x.parts ∧ pathLimit ≤ q.text.utf8ByteSize ∧ t.IsLink q

lemma Spells.hasNull_extend (h : t.Spells p here) (hname : IsName name) :
    (p.extend name).hasNull = false := by
  obtain ⟨k, names, hparts, hnames, -⟩ := h.parts
  rw [Path.hasNull, Path.extend, hparts, List.any_eq_false]
  intro part hpart
  simp only [List.mem_append, List.mem_replicate, List.mem_singleton] at hpart
  rw [List.contains_iff_mem]
  obtain (⟨-, rfl⟩ | hpart) | rfl := hpart
  · decide
  · exact (hnames part hpart).nullFree
  · exact hname.nullFree

/-- Wherever a walk arrives there is the entry that it finds. -/
lemma descend?_of_walk {root : Node} {follow : Bool}
    (h : walk root follow links here todo = .ok (place, n)) : root.descend? place = some n := by
  fun_induction walk root follow links here todo with
  | case1 links here m hm =>
    obtain ⟨rfl, rfl⟩ := Prod.mk.inj (Except.ok.inj h)
    exact hm
  | case8 links here name todo entries hentries hdot hback hnull hsize target htarget hlast =>
    obtain ⟨rfl, rfl⟩ := Prod.mk.inj (Except.ok.inj h)
    rw [Node.descend?_append, hentries]
    simpa [Node.child?] using htarget
  | case3 _ _ _ _ _ _ _ ih | case4 _ _ _ _ _ _ _ _ ih => exact ih h
  | case10 _ _ _ _ _ _ _ _ _ _ _ _ _ ih | case11 _ _ _ _ _ _ _ _ _ _ _ _ _ ih => exact ih h
  | case2 | case5 | case6 | case7 | case9 | case12 | case13 => cases h

/-- In a tree without links no link is hidden. -/
lemma not_hidesLink_of_plain (h : t.root.Plain) : ¬ t.HidesLink x := by
  rintro ⟨q, -, -, place, target, hwalk⟩
  exact Bool.false_ne_true (h place _ (descend?_of_walk hwalk)).1.symm

/-- What a walk finds not to be a link is not seen as one. -/
lemma target?_eq_none_of_walk
    (hwalk : walk t.root false linkLimit (t.base p) p.parts = .ok (place, n))
    (hlink : n.isLink = false) : t.target? p = none := by
  rw [target?, resolve, hwalk]
  split
  · rename_i heq
    split_ifs at heq
    obtain ⟨-, rfl⟩ := Prod.mk.inj (Except.ok.inj heq)
    cases hlink
  · rfl

section Step

variable {entries : List (String × Node)} (h : t.Spells p here)
  (hhere : t.root.descend? here = some (.directory entries))
include h hhere

/-- What is found behind a path that spells a place is found at the place. -/
lemma Spells.walk_extend {follow : Bool} :
    walk t.root follow links (t.base (p.extend name)) (p.extend name).parts =
      walk t.root follow links here [name] :=
  h.walk_eq hhere rfl [name]

/-- The target of a link is followed from the place of the link, or from the root. -/
lemma Spells.targetStart (target : String) :
    t.Spells (targetStart p target) (if target.startsWith "/" then [] else here) := by
  rw [FileTree.targetStart]
  split
  · exact spells_start (p := ⟨.root, []⟩) (Node.exists_directory_take hhere 0)
  · exact h

variable (hname : IsName name)
include hname

/-- What is no link is not seen as one. -/
lemma Spells.target?_eq_none {m : Node} (hm : entries.lookup name = some m)
    (hlink : m.isLink = false) : t.target? (p.extend name) = none := by
  have hplace : t.root.descend? (here ++ [name]) = some m := by
    rw [Node.descend?_append, hhere]
    simpa [Node.child?] using hm
  have hwalk : walk t.root false linkLimit (t.base (p.extend name)) (p.extend name).parts =
      .ok (here ++ [name], m) := by
    rw [h.walk_extend hhere, walk_cons hhere hname hm hlink, walk_nil hplace]
  exact target?_eq_none_of_walk hwalk hlink

variable (hlink : entries.lookup name = some (.link target))
include hlink

lemma Spells.isLink : t.IsLink (p.extend name) :=
  ⟨_, _, (h.walk_extend hhere).trans (walk_last_link hhere hname hlink)⟩

/-- A link is seen if its path is not too long. -/
lemma Spells.target?_eq_some (hshort : (p.extend name).text.utf8ByteSize < pathLimit) :
    t.target? (p.extend name) = some target := by
  rw [target?, resolve_eq_walk (h.hasNull_extend hname) hshort,
    h.walk_extend hhere, walk_last_link hhere hname hlink]

end Step

/-- **Rewriting ends where the walk ends.** As long as all links are seen, a path from which the
links have been removed spells the place where a walk along the path arrives.

**Proof sketch.** Induction along the walk: the path that has been rewritten so far spells the place
at which the walk stands. Where the walk follows a link, the link is at the end of a path that
spells its place, and so it is seen and replaced. The walk then goes on with the target and what is
behind it in one go, and the path is rewritten in these two steps (`withoutLinks_append`). -/
lemma withoutLinks_of_walk (hnesting : links ≤ nesting) (hp : t.Spells p here)
    (hsees : ∀ q, t.Asks q p todo → t.IsLink q → q.text.utf8ByteSize < pathLimit)
    (h : walk t.root true links here todo = .ok (place, n)) :
    ∃ q, t.withoutLinks nesting p todo = some q ∧ t.Spells q place := by
  fun_induction walk t.root true links here todo generalizing p nesting with
  | case1 links here m hm =>
    obtain ⟨rfl, rfl⟩ := Prod.mk.inj (Except.ok.inj h)
    exact ⟨p, withoutLinks_nil, hp⟩
  | case3 links here name todo entries hentries hdot ih =>
    rw [withoutLinks_dot hdot]
    exact ih hnesting hp (fun q hq => hsees q (.dot hdot hq)) h
  | case4 links here name todo entries hentries hdot hback ih =>
    obtain rfl := beq_iff_eq.1 hback
    rw [withoutLinks_back]
    exact ih hnesting hp.back (fun q hq => hsees q (.back hq)) h
  | case8 links here name todo entries hentries hdot hback hnull hsize target htarget hlast =>
    simp at hlast
  | case10 here name todo entries hentries hdot hback hnull hsize target htarget hlast links ih =>
    have hname : IsName name := isName_of_tests hdot hback hnull hsize
    have hseen : t.target? (p.extend name) = some target :=
      hp.target?_eq_some hentries hname htarget
        (hsees _ (.here hname.proper rfl) (hp.isLink hentries hname htarget))
    obtain ⟨nesting, rfl⟩ : ∃ k, nesting = k + 1 := ⟨nesting - 1, by omega⟩
    obtain ⟨q, hq, hplace⟩ := ih (Nat.le_of_succ_le_succ hnesting)
      (hp.targetStart hentries target) (fun q hq => hsees q (.link hname.proper hseen hq)) h
    refine ⟨q, ?_, hplace⟩
    rw [withoutLinks_append] at hq
    obtain ⟨r, hr, hrest⟩ := Option.bind_eq_some_iff.1 hq
    rw [withoutLinks_link hname.proper hseen, hr, Option.bind_some, withoutLinks_succ hrest]
  | case11 links here name todo entries hentries hdot hback hnull hsize m hm hlookup ih =>
    have hname : IsName name := isName_of_tests hdot hback hnull hsize
    have hlink : m.isLink = false := by
      cases m with
      | link target => exact absurd rfl (hm target)
      | _ => rfl
    have hkeep := hp.target?_eq_none hentries hname hlookup hlink
    rw [withoutLinks_keep hname.proper hkeep]
    exact ih hnesting (hp.extend hname) (fun q hq => hsees q (.keep hname.proper hkeep hq)) h
  | case2 | case5 | case6 | case7 | case9 | case12 | case13 => cases h

/-! ## Absolute paths -/

/-- A walk starts at a directory, unless it is over at once. -/
lemma exists_directory_of_walk {root : Node} {follow : Bool}
    (h : walk root follow links here todo = .ok (place, n))
    (hgo : todo ≠ [] ∨ n.isDirectory = true) :
    ∃ entries, root.descend? here = some (.directory entries) := by
  cases todo with
  | nil =>
    rw [walk] at h
    split at h
    · rename_i m hm
      obtain ⟨-, rfl⟩ := Prod.mk.inj (Except.ok.inj h)
      have hm' := hgo.resolve_left (not_not.2 rfl)
      cases m with
      | directory entries => exact ⟨entries, hm⟩
      | _ => cases hm'
    · cases h
  | cons name todo =>
    rw [walk] at h
    split at h
    · rename_i entries hentries
      exact ⟨entries, hentries⟩
    · cases h
    · cases h

/-- A path that leads somewhere is followed. -/
lemma walk_of_resolve {follow : Bool} (h : t.resolve follow x = .ok (place, n)) :
    walk t.root follow linkLimit (t.base x) x.parts = .ok (place, n) := by
  unfold resolve at h
  split at h
  · cases h
  split at h
  · cases h
  exact h

section Resolve

variable (h : t.resolve true x = .ok (place, n)) (hlinks : ¬ t.HidesLink x)
include h hlinks

/-- What is left of a path without its links spells the place that the path leads to. -/
lemma exists_spells (hgo : x.parts ≠ [] ∨ n.isDirectory = true) :
    ∃ q, t.withoutLinks nestingLimit x.start x.parts = some q ∧ t.Spells q place := by
  have hwalk := walk_of_resolve h
  refine withoutLinks_of_walk (by decide)
    (spells_start (exists_directory_of_walk hwalk hgo)) (fun q hq hlink => ?_) hwalk
  by_contra hlong
  exact hlinks ⟨q, hq, Nat.le_of_not_lt hlong, hlink⟩

/-- **The absolute path of what a path leads to**, as long as all links are seen. -/
lemma canonical?_of_resolve : t.canonical? x = some ⟨.root, place⟩ := by
  by_cases hne : x.parts = []
  · have hwalk := walk_of_resolve h
    rw [hne, walk] at hwalk
    split at hwalk
    · obtain ⟨rfl, -⟩ := Prod.mk.inj (Except.ok.inj hwalk)
      have hnone : t.withoutLinks nestingLimit x.start x.parts = some x.start := by
        rw [hne, withoutLinks_nil]
      rw [canonical?_of_withoutLinks hnone, absolute, base_start]
      rfl
    · cases hwalk
  · obtain ⟨q, hq, hspells⟩ := exists_spells h hlinks (.inl hne)
    rw [canonical?_of_withoutLinks hq, hspells.absolute_eq]

end Resolve

/-- The absolute path of what a name leads to, if it is not seen to be a link. -/
lemma canonical?_name (hproper : name ∉ ["", ".", ".."])
    (h : t.target? ⟨.relative, [name]⟩ = none) :
    t.canonical? ⟨.relative, [name]⟩ = some ⟨.root, t.workingDirectory ++ [name]⟩ := by
  have hback : (name == "..") = false := beq_false_of_ne fun heq => hproper (by simp [heq])
  have hkeep : t.withoutLinks nestingLimit ⟨.relative, []⟩ [name] = some ⟨.relative, [name]⟩ := by
    rw [withoutLinks_keep hproper h, withoutLinks_nil]
    rfl
  rw [canonical?_of_withoutLinks (x := ⟨.relative, [name]⟩) hkeep]
  simp [absolute, stepFrom, hback, base, Path.isAbsolute]

/-- What is kept name by name is kept as a whole. -/
lemma withoutLinks_down {names : List String} (hnames : Proper names)
    (h : ∀ more name, more ++ [name] <+: names → t.target? (p.down (more ++ [name])) = none) :
    t.withoutLinks nesting p names = some (p.down names) := by
  induction names generalizing p with
  | nil => rw [withoutLinks_nil, Path.down_nil]
  | cons name names ih =>
    obtain ⟨hname, hrest⟩ := List.forall_mem_cons.1 hnames
    have hfirst : t.target? (p.extend name) = none :=
      h [] name (List.cons_prefix_cons.2 ⟨rfl, List.nil_prefix⟩)
    have hdown : ∀ q, (p.extend name).down q = p.down (name :: q) := p.down_down [name]
    rw [withoutLinks_keep hname hfirst, ih hrest fun more last hfront => ?_, hdown]
    rw [hdown]
    exact h (name :: more) last (List.cons_prefix_cons.2 ⟨rfl, hfront⟩)

/-- A directory on the way from the root is not seen as a link. -/
lemma target?_of_descend? (hplace : ∀ name ∈ place, IsName name)
    (h : t.root.descend? place = some n) (hlink : n.isLink = false) :
    t.target? ⟨.root, place⟩ = none :=
  target?_eq_none_of_walk (walk_down hlink hplace h) hlink

/-- A link is not seen if its path is too long. -/
lemma target?_of_pathLimit_le (h : pathLimit ≤ p.text.utf8ByteSize) : t.target? p = none := by
  rw [target?, resolve]
  split
  · split at * <;> simp_all
  · rfl

/-- **The absolute paths below a place without links**, as long as the links on the way there are
seen. -/
lemma canonical?_down (h : t.resolve true x = .ok (place, n)) (hlinks : ¬ t.HidesLink x)
    (hplain : n.Plain) (hdirectory : n.isDirectory = true) {names : List String}
    (hnames : Proper names) : t.canonical? (x.down names) = some ⟨.root, place ++ names⟩ := by
  obtain ⟨q, hq, hspells⟩ := exists_spells h hlinks (.inr hdirectory)
  have hplace : t.root.descend? place = some n := (exists_links_of_resolve h).1
  have htarget : ∀ more name, more ++ [name] <+: names →
      t.target? (q.down (more ++ [name])) = none := by
    intro more name hfront
    have hproper : Proper (more ++ [name]) :=
      fun other hother => hnames other (hfront.subset hother)
    rw [target?]
    split
    · rename_i target hresolve
      have hwalk : walk t.root false linkLimit (t.base q) (q.parts ++ (more ++ [name])) = _ :=
        walk_of_resolve hresolve
      rw [hspells.walk_eq hplace hplain.isLink] at hwalk
      have hfound : (walk t.root false linkLimit place (more ++ [name])).toOption = _ :=
        toOption_walk hplain hplace hproper
      rw [hwalk] at hfound
      obtain ⟨m, hm, heq⟩ := Option.map_eq_some_iff.1 hfound.symm
      obtain ⟨-, rfl⟩ := Prod.mk.inj heq
      cases (hplain _ _ hm).1
    · rfl
  have hrest : t.withoutLinks nestingLimit q names = some (q.down names) :=
    withoutLinks_down hnames htarget
  have habsolute : t.absolute (q.down names) = ⟨.root, place ++ names⟩ := by
    have hback : ".." ∉ names := fun hmem => hnames ".." hmem (by simp)
    have hhere : q.parts.foldl stepFrom (t.base q) = place :=
      congrArg Path.parts hspells.absolute_eq
    have hdown : (List.replicate 0 ".." ++ names).foldl stepFrom place = _ :=
      foldl_stepFrom 0 names hback
    rw [Nat.sub_zero, List.take_length] at hdown
    have hbase : t.base (q.down names) = t.base q := rfl
    rw [absolute, hbase, Path.down, List.foldl_append, hhere]
    exact congrArg (Path.mk .root) hdown
  have hwhole : t.withoutLinks nestingLimit (x.down names).start (x.down names).parts =
      some (q.down names) := by
    rw [show (x.down names).start = x.start from rfl, Path.down, withoutLinks_append, hq,
      Option.bind_some, hrest]
  rw [canonical?_of_withoutLinks hwhole, habsolute]

/-- In a tree without links, no directory is further down from another than from the root. -/
lemma length_le_of_isDirectory_down {k : Nat} (hplain : t.root.Plain)
    (hshallow : ∀ parts m, t.root.descend? parts = some m → m.isDirectory = true →
      parts.length ≤ k) {names : List String} (hnames : Proper names)
    (h : t.isDirectory (p.down names) = true) : names.length ≤ k := by
  cases hresolve : t.resolve true (p.down names) with
  | error e => simp [isDirectory, find?, hresolve, Except.toOption] at h
  | ok r =>
    obtain ⟨last, m⟩ := r
    have hm : m.isDirectory = true := by
      simpa [isDirectory, find?, hresolve, Except.toOption] using h
    have hwalk : walk t.root true linkLimit (t.base p) (p.parts ++ names) = .ok (last, m) :=
      walk_of_resolve hresolve
    obtain ⟨⟨place, n⟩, hfirst⟩ := exists_walk_of_append hwalk
    obtain ⟨links, hlinks⟩ := exists_links_of_walk hfirst
    rw [hlinks true names (.inl rfl)] at hwalk
    have hplace : t.root.descend? place = some n := descend?_of_walk hfirst
    have hfound : (walk t.root true links place names).toOption = _ :=
      toOption_walk (hplain.descend? hplace) hplace hnames
    rw [hwalk] at hfound
    obtain ⟨m', hdown, heq⟩ := Option.map_eq_some_iff.1 hfound.symm
    obtain ⟨-, rfl⟩ := Prod.mk.inj heq
    have hlength := hshallow (place ++ names) m'
      (by rw [Node.descend?_append, hplace]; exact hdown) hm
    rw [List.length_append] at hlength
    omega

end FileTree

end WorkflowLint
