import Mathlib.Algebra.GroupWithZero.Nat
import WorkflowLint.Proofs.PathText

/-!
# Following paths

What a walk through a file tree comes to. Down along names there are no surprises: the walk arrives
where the names lead. And wherever a walk arrives, links and steps back included, it arrives at a
place that is reached from the root by going down along names. The absolute path of that place is
therefore as good as the path that led there, but for one thing: it may be longer than paths may be.

## Main definitions

* `WorkflowLint.FileTree.IsName` — what an entry can be called.

## Main results

* `WorkflowLint.FileTree.walk_append`, `WorkflowLint.FileTree.walk_down` — a walk down along names.
* `WorkflowLint.FileTree.walk_sound` — where a walk arrives.
* `WorkflowLint.FileTree.read_of_descend?` — a file is read by its absolute path.
-/

set_option autoImplicit false

namespace WorkflowLint

namespace Node

@[simp] lemma descend?_nil (n : Node) : n.descend? [] = some n := rfl

@[simp] lemma descend?_cons (n : Node) (name : String) (parts : List String) :
    n.descend? (name :: parts) = (n.child? name).bind fun m => m.descend? parts := rfl

lemma descend?_append (n : Node) (parts more : List String) :
    n.descend? (parts ++ more) = (n.descend? parts).bind fun m => m.descend? more :=
  List.foldlM_append

/-- A chain of directories leads to its end. -/
lemma descend?_foldr (parts : List String) (n : Node) :
    (parts.foldr (fun name n => directory [(name, n)]) n).descend? parts = some n := by
  induction parts with
  | nil => rfl
  | cons name parts ih => simpa [child?] using ih

/-- Only a directory has entries. -/
lemma exists_directory_of_child? {n m : Node} {name : String} (h : n.child? name = some m) :
    ∃ entries, n = directory entries ∧ entries.lookup name = some m := by
  cases n with
  | directory entries => exact ⟨entries, rfl, h⟩
  | _ => simp [child?] at h

/-- Is this a link? -/
def isLink : Node → Bool
  | link _ => true
  | _ => false

/-- An entry on the way to one that is no link is no link either. -/
lemma isLink_of_descend? {n m : Node} {parts : List String} (h : n.descend? parts = some m)
    (hm : m.isLink = false) : n.isLink = false := by
  cases parts with
  | nil =>
    obtain rfl : n = m := by simpa using h
    exact hm
  | cons name parts =>
    obtain ⟨k, hk, -⟩ := Option.bind_eq_some_iff.1 (by simpa using h)
    obtain ⟨entries, rfl, -⟩ := exists_directory_of_child? hk
    rfl

end Node

namespace Path

variable {parts : List String} (h : parts ≠ [])
include h

/-- Every component is as long as it is, and all but the first have a slash in front. -/
lemma utf8ByteSize_intercalate : ("/".intercalate parts).utf8ByteSize + 1 =
    (parts.map fun part => part.utf8ByteSize + 1).sum := by
  have hslash : "/".utf8ByteSize = 1 := by decide
  induction parts with
  | nil => exact absurd rfl h
  | cons part parts ih =>
    cases parts with
    | nil => simp
    | cons next parts =>
      have hnext := ih (by simp)
      rw [String.intercalate_cons_cons, String.utf8ByteSize_append, String.utf8ByteSize_append,
        hslash, List.map_cons, List.sum_cons, ← hnext]
      omega

/-- An absolute path has a slash in front of its first component as well. -/
lemma utf8ByteSize_text_root : (Path.mk .root parts).text.utf8ByteSize =
    (parts.map fun part => part.utf8ByteSize + 1).sum := by
  have htext : (Path.mk .root parts).text = "/" ++ "/".intercalate parts := rfl
  rw [htext, String.utf8ByteSize_append, ← utf8ByteSize_intercalate h, Nat.add_comm]
  rfl

lemma utf8ByteSize_text_relative : (Path.mk .relative parts).text.utf8ByteSize + 1 =
    (parts.map fun part => part.utf8ByteSize + 1).sum := by
  rw [← utf8ByteSize_intercalate h]
  obtain ⟨part, parts, rfl⟩ := List.exists_cons_of_ne_nil h
  simp [text, Anchor.text]

end Path

namespace FileTree

/-! ## Names -/

/-- Can an entry be called `name`? The empty name, one dot and two dots have a meaning of their own,
the length of names is limited, and one character does not come up in them. -/
structure IsName (name : String) : Prop where
  proper : name ∉ ["", ".", ".."]
  short : name.utf8ByteSize ≤ nameLimit
  nullFree : '\x00' ∉ name.toList

instance (name : String) : Decidable (IsName name) :=
  decidable_of_iff
    (name ∉ ["", ".", ".."] ∧ name.utf8ByteSize ≤ nameLimit ∧ '\x00' ∉ name.toList)
    ⟨fun ⟨hproper, hshort, hnull⟩ => ⟨hproper, hshort, hnull⟩,
      fun h => ⟨h.proper, h.short, h.nullFree⟩⟩

lemma isName_replicate {k : Nat} {c : Char} (hk : 2 < k) (hsize : k * c.utf8Size ≤ nameLimit)
    (hnull : c ≠ '\x00') : IsName (String.ofList (List.replicate k c)) where
  proper := Path.proper_replicate hk
  short := by rwa [Path.utf8ByteSize_replicate]
  nullFree hc := hnull (Path.eq_of_mem_replicate hc).symm

/-- A component that is no step back and not left out stands for an entry. -/
lemma proper_of_tests {name : String} (hdot : ¬(name == "" || name == ".") = true)
    (hback : ¬(name == "..") = true) : name ∉ ["", ".", ".."] := by
  simpa [not_or, and_assoc] using And.intro hdot hback

/-- The names that a walk looks up are those that pass its tests. -/
lemma isName_of_tests {name : String} (hdot : ¬(name == "" || name == ".") = true)
    (hback : ¬(name == "..") = true) (hnull : ¬name.toList.contains '\x00' = true)
    (hsize : ¬name.utf8ByteSize > nameLimit) : IsName name :=
  ⟨proper_of_tests hdot hback, Nat.le_of_not_lt hsize, by simpa using hnull⟩

/-! ## Walks -/

variable {root : Node} {follow : Bool} {links : Nat} {here : List String}

/-- The end of a walk. -/
lemma walk_nil {n : Node} (h : root.descend? here = some n) :
    walk root follow links here [] = .ok (here, n) := by
  rw [walk, h]

section Step

variable {name : String} {todo : List String} {entries : List (String × Node)}
  (hhere : root.descend? here = some (.directory entries))
include hhere

/-- A step of a walk along a name: the entry of that name is looked up, and a link is replaced by
its target. -/
lemma walk_name (hname : IsName name) :
    walk root follow links here (name :: todo) =
      match entries.lookup name with
      | none => .error .notFound
      | some (.link target) =>
        if todo.isEmpty && !follow then .ok (here ++ [name], .link target)
        else
          match links with
          | 0 => .error .tooManyLinks
          | links + 1 =>
            walk root follow links (if target.startsWith "/" then [] else here)
              (targetParts target ++ todo)
      | some _ => walk root follow links (here ++ [name]) todo := by
  obtain ⟨hproper, hshort, hnull⟩ := hname
  simp only [List.mem_cons, List.not_mem_nil, or_false, not_or] at hproper
  have hshort : ¬ name.utf8ByteSize > nameLimit := Nat.not_lt_of_le hshort
  rw [walk, hhere]
  cases hm : entries.lookup name with
  | none => simp [hproper, hnull, hshort, hm]
  | some m => cases m <;> cases links <;> simp [hproper, hnull, hshort, hm]

/-- A step of a walk to an entry that is no link. -/
lemma walk_cons (hname : IsName name) {m : Node} (hm : entries.lookup name = some m)
    (hlink : m.isLink = false) :
    walk root follow links here (name :: todo) = walk root follow links (here ++ [name]) todo := by
  rw [walk_name hhere hname, hm]
  cases m with
  | link _ => simp [Node.isLink] at hlink
  | _ => rfl

/-- A walk that misses an entry stops there. -/
lemma walk_missing (hname : IsName name) (hm : entries.lookup name = none) :
    walk root follow links here (name :: todo) = .error .notFound := by
  rw [walk_name hhere hname, hm]

/-- A link on the way is replaced by its target, and so is one at the end if links are followed. -/
lemma walk_link (hname : IsName name) {target : String}
    (hlink : entries.lookup name = some (.link target)) (hgo : todo ≠ [] ∨ follow = true) :
    walk root follow (links + 1) here (name :: todo) =
      walk root follow links (if target.startsWith "/" then [] else here)
        (targetParts target ++ todo) := by
  have hlast : (todo.isEmpty && !follow) = false := by
    obtain hne | rfl := hgo
    · simp [hne]
    · exact Bool.and_false _
  rw [walk_name hhere hname, hlink]
  simp [hlast]

/-- A link at the end is where a walk arrives that does not follow it. -/
lemma walk_last_link (hname : IsName name) {target : String}
    (hlink : entries.lookup name = some (.link target)) :
    walk root false links here [name] = .ok (here ++ [name], .link target) := by
  rw [walk_name hhere hname, hlink]
  rfl

/-- A walk stops at a name that is too long. -/
lemma walk_long (hproper : name ∉ ["", ".", ".."]) (hnull : '\x00' ∉ name.toList)
    (hsize : nameLimit < name.utf8ByteSize) :
    walk root follow links here (name :: todo) = .error .nameTooLong := by
  simp only [List.mem_cons, List.not_mem_nil, or_false, not_or] at hproper
  rw [walk, hhere]
  simp [hproper, hnull, hsize]

/-- A walk stops at a name that no entry has. -/
lemma walk_null (hproper : name ∉ ["", ".", ".."]) (hnull : '\x00' ∈ name.toList) :
    walk root follow links here (name :: todo) = .error .notFound := by
  simp only [List.mem_cons, List.not_mem_nil, or_false, not_or] at hproper
  rw [walk, hhere]
  simp [hproper, hnull]

/-- A walk does not get past what is missing, whatever it is called. -/
lemma toOption_walk_missing (hproper : name ∉ ["", ".", ".."])
    (hm : entries.lookup name = none) :
    (walk root follow links here (name :: todo)).toOption = none := by
  by_cases hnull : '\x00' ∈ name.toList
  · rw [walk_null hhere hproper hnull]
    rfl
  obtain hsize | hsize := Nat.lt_or_ge nameLimit name.utf8ByteSize
  · rw [walk_long hhere hproper hnull hsize]
    rfl
  · rw [walk_missing hhere ⟨hproper, hsize, hnull⟩ hm]
    rfl

end Step

/-- A walk does not go on below what is no directory. -/
lemma walk_notADirectory {n : Node} (hhere : root.descend? here = some n)
    (hn : n.isDirectory = false) {name : String} {todo : List String} :
    walk root follow links here (name :: todo) = .error .notADirectory := by
  rw [walk, hhere]
  cases n with
  | directory entries => cases hn
  | _ => rfl

/-- Down along names, a walk goes where the names lead.

**Proof sketch.** Induction along the names. Everything on the way is a directory, and so no link is
met before the end. -/
lemma walk_append {n : Node} (hn : n.isLink = false) {parts : List String}
    (hparts : ∀ name ∈ parts, IsName name) (h : root.descend? (here ++ parts) = some n)
    (todo : List String) :
    walk root follow links here (parts ++ todo) = walk root follow links (here ++ parts) todo := by
  induction parts generalizing here with
  | nil => rw [List.nil_append, List.append_nil]
  | cons name parts ih =>
    obtain ⟨m, hm, hdown⟩ := Option.bind_eq_some_iff.1 (Node.descend?_append root here _ ▸ h)
    obtain ⟨k, hk, hrest⟩ := Option.bind_eq_some_iff.1 (Node.descend?_cons m name parts ▸ hdown)
    obtain ⟨entries, rfl, hlookup⟩ := Node.exists_directory_of_child? hk
    rw [List.cons_append,
      walk_cons hm (hparts name (by simp)) hlookup (Node.isLink_of_descend? hrest hn),
      ih (fun other hother => hparts other (List.mem_cons_of_mem _ hother)) (by simpa using h),
      List.append_assoc, List.singleton_append]

/-- A walk down along names arrives where the names lead. -/
lemma walk_down {n : Node} (hn : n.isLink = false) {parts : List String}
    (hparts : ∀ name ∈ parts, IsName name) (h : root.descend? (here ++ parts) = some n) :
    walk root follow links here parts = .ok (here ++ parts, n) := by
  rw [← walk_nil h, ← walk_append hn hparts h, List.append_nil]

/-- Wherever a walk arrives, links followed, is a place that is reached from the root by going down
along names.

**Proof sketch.** Induction along the walk. A step down adds a name whose length has been tested, a
step back drops one, and a link starts over from the root or from the place at hand. -/
lemma walk_sound {todo place : List String} {n : Node} (hhere : ∀ name ∈ here, IsName name)
    (h : walk root true links here todo = .ok (place, n)) :
    (∀ name ∈ place, IsName name) ∧ root.descend? place = some n := by
  fun_induction walk root true links here todo with
  | case1 links here m hm =>
    obtain ⟨rfl, rfl⟩ := Prod.mk.inj (Except.ok.inj h)
    exact ⟨hhere, hm⟩
  | case3 links here name todo entries hentries hdot ih => exact ih hhere h
  | case4 links here name todo entries hentries hdot hparent ih =>
    exact ih (fun other hother => hhere other ((List.dropLast_sublist here).subset hother)) h
  | case8 links here name todo entries hentries hdot hparent hnull hsize target htarget hlast =>
    simp at hlast
  | case10 here name todo entries hentries hdot hparent hnull hsize target htarget hlast links ih =>
    refine ih (fun other hother => ?_) h
    split at hother
    · simp at hother
    · exact hhere other hother
  | case11 links here name todo entries hentries hdot hparent hnull hsize m hm hlookup ih =>
    refine ih (fun other hother => ?_) h
    obtain hother | hother := List.mem_append.1 hother
    · exact hhere other hother
    · obtain rfl := List.mem_singleton.1 hother
      exact isName_of_tests hdot hparent hnull hsize
  | case2 | case5 | case6 | case7 | case9 | case12 | case13 => cases h

/-- Wherever a path leads is reached from the root by going down along names. -/
lemma resolve_sound {t : FileTree} (hcwd : ∀ name ∈ t.workingDirectory, IsName name) {p : Path}
    {place : List String} {n : Node} (h : t.resolve true p = .ok (place, n)) :
    (∀ name ∈ place, IsName name) ∧ t.root.descend? place = some n := by
  unfold resolve at h
  split at h
  · cases h
  split at h
  · cases h
  refine walk_sound (fun name hname => ?_) h
  unfold base at hname
  split at hname
  · simp at hname
  · exact hcwd name hname

/-- A path of names is looked up. -/
lemma resolve_eq_walk {t : FileTree} {p : Path} (hnull : p.hasNull = false)
    (hshort : p.text.utf8ByteSize < pathLimit) :
    t.resolve follow p = walk t.root follow linkLimit (t.base p) p.parts := by
  simp [resolve, hnull, Nat.not_le_of_lt hshort]

lemma hasNull_of_isName {p : Path} (h : ∀ name ∈ p.parts, IsName name) : p.hasNull = false := by
  simp only [Path.hasNull, List.any_eq_false, List.contains_iff_mem]
  exact fun name hname => (h name hname).nullFree

/-! ## Absolute paths -/

/-- A file at a place that is reached along names is read by the absolute path of that place. -/
lemma read_of_descend? {t : FileTree} {place : List String} {bytes : List UInt8}
    (hplace : ∀ name ∈ place, IsName name)
    (hsize : (Path.mk .root place).text.utf8ByteSize < pathLimit)
    (h : t.root.descend? place = some (.file bytes)) : t.read ⟨.root, place⟩ = .ok bytes := by
  have hwalk : walk t.root true linkLimit [] place = .ok (place, .file bytes) :=
    walk_down rfl hplace h
  rw [read, resolve_eq_walk (hasNull_of_isName hplace) hsize]
  simp [base, Path.isAbsolute, hwalk]

/-- A path that is too long is not read. -/
lemma read_of_pathLimit_le {t : FileTree} {place : List String}
    (hplace : ∀ name ∈ place, IsName name)
    (h : pathLimit ≤ (Path.mk .root place).text.utf8ByteSize) :
    t.read ⟨.root, place⟩ = .error .nameTooLong := by
  have hnull : (Path.mk .root place).hasNull = false := hasNull_of_isName hplace
  simp [read, resolve, hnull, h]

/-! ## The working directory -/

section WorkingDirectory

variable {t : FileTree} {entries : List (String × Node)}
  (hentries : t.root.descend? t.workingDirectory = some (.directory entries))
include hentries

lemma resolve_here :
    t.resolve true ⟨.relative, []⟩ = .ok (t.workingDirectory, .directory entries) := by
  rw [resolve_eq_walk rfl (by decide)]
  exact walk_nil hentries

lemma isDirectory_here : t.isDirectory ⟨.relative, []⟩ = true := by
  rw [isDirectory, find?, resolve_here hentries]
  rfl

/-- A file in the working directory is reached by its name. -/
lemma resolve_file {name : String} {bytes : List UInt8} (hname : IsName name)
    (hfile : entries.lookup name = some (.file bytes)) :
    t.resolve follow ⟨.relative, [name]⟩ = .ok (t.workingDirectory ++ [name], .file bytes) := by
  have htext : (Path.mk .relative [name]).text = name := by simp [Path.text, Anchor.text]
  have hsize : name.utf8ByteSize < pathLimit := Nat.lt_of_le_of_lt hname.short (by decide)
  have hplace : t.root.descend? (t.workingDirectory ++ [name]) = some (.file bytes) := by
    rw [Node.descend?_append, hentries]
    simp [Node.child?, hfile]
  rw [resolve_eq_walk (hasNull_of_isName (by simpa using hname)) (htext ▸ hsize)]
  exact walk_down rfl (by simpa using hname) hplace

/-- A name that is too long leads to an error. -/
lemma resolve_long {name : String} (hproper : name ∉ ["", ".", ".."])
    (hnull : '\x00' ∉ name.toList) (hsize : nameLimit < name.utf8ByteSize) :
    t.resolve follow ⟨.relative, [name]⟩ = .error .nameTooLong := by
  have hpath : (Path.mk .relative [name]).hasNull = false := by simpa [Path.hasNull] using hnull
  rw [resolve, hpath, if_neg Bool.false_ne_true]
  split
  · rfl
  · exact walk_long hentries hproper hnull hsize

/-- What is not in the working directory is not found there. -/
lemma resolve_missing (hcwd : ∀ name ∈ t.workingDirectory, IsName name) {name : String}
    (hname : IsName name)
    (hsize : (Path.mk .root (t.workingDirectory ++ [name])).text.utf8ByteSize < pathLimit)
    (hmissing : entries.lookup name = none) :
    t.resolve follow ⟨.root, t.workingDirectory ++ [name]⟩ = .error .notFound := by
  have hnames : ∀ part ∈ t.workingDirectory ++ [name], IsName part :=
    List.forall_mem_append.2 ⟨hcwd, by simpa using hname⟩
  rw [resolve_eq_walk (hasNull_of_isName hnames) hsize]
  have hdown : walk t.root follow linkLimit [] (t.workingDirectory ++ [name]) =
      walk t.root follow linkLimit t.workingDirectory [name] :=
    walk_append (n := .directory entries) rfl hcwd hentries [name]
  exact hdown.trans (walk_missing hentries hname hmissing)

end WorkingDirectory

/-! ## A deep working directory -/

/-- A chain of directories of one name, the last of which is the working directory. -/
def chain (part : String) (depth : Nat) (entries : List (String × Node)) : FileTree :=
  ⟨(List.replicate depth part).foldr (fun part n => .directory [(part, n)]) (.directory entries),
    List.replicate depth part⟩

lemma utf8ByteSize_chain (part : String) (depth : Nat) (entries : List (String × Node))
    (last : String) :
    (Path.mk .root ((chain part depth entries).workingDirectory ++ [last])).text.utf8ByteSize =
      depth * (part.utf8ByteSize + 1) + (last.utf8ByteSize + 1) := by
  rw [Path.utf8ByteSize_text_root (by simp)]
  simp [chain]

end FileTree

end WorkflowLint
