import WorkflowLint.Proofs.Canonical
import WorkflowLint.Proofs.Expansion

/-!
# What is in the way of collecting files

Collecting files is broken off by the first thing that is not expected: a pattern asks for a path
that the system refuses to list, it cannot be told what one of the paths leads to that a pattern
stands for, or the links in such a path go in a circle. None of these comes up in other
circumstances: the first asks for the character U+0000 in a pattern, and the last for a link that
was not seen.

## Main definitions

* `WorkflowLint.FirstOf` — the first of some things that has an effect.
* `WorkflowLint.FileSet.Bars`, `WorkflowLint.FileSet.Obstructs` — what is in the way of a path, and
  of a pattern.
* `WorkflowLint.FileSet.Unobstructed` — nothing is in the way of some patterns.

## Main results

* `WorkflowLint.FileSet.isUnlistable_eq_false` — patterns without the character U+0000.
* `WorkflowLint.FileSet.collect_eq_breakdown_iff` — when collecting is broken off, and by what.
-/

set_option autoImplicit false

namespace WorkflowLint

/-! ## The first effect -/

section FirstOf

variable {α β : Type} {P : α → β → Prop} {f : α → Option β} {xs : List α} {b : β}

/-- The first of the `xs` that has an effect has the effect `b`. -/
def FirstOf (P : α → β → Prop) (xs : List α) (b : β) : Prop :=
  ∃ before x after, xs = before ++ x :: after ∧ (∀ y ∈ before, ∀ c, ¬ P y c) ∧ P x b

lemma findSome?_eq_some_iff_firstOf (h : ∀ x b, f x = some b ↔ P x b) :
    xs.findSome? f = some b ↔ FirstOf P xs b := by
  rw [List.findSome?_eq_some_iff, FirstOf]
  simp only [h, Option.eq_none_iff_forall_ne_some, ne_eq, and_comm]

lemma FirstOf.exists_mem (h : FirstOf P xs b) : ∃ x ∈ xs, P x b := by
  obtain ⟨before, x, after, rfl, -, hx⟩ := h
  exact ⟨x, by simp, hx⟩

end FirstOf

/-! ## Characters of paths and patterns -/

/-- A written path has no other characters than its components, but for dots and slashes. -/
lemma Path.mem_text {p : Path} {c : Char} (h : c ∈ p.text.toList) :
    c ∈ ['/', '.'] ∨ ∃ part ∈ p.parts, c ∈ part.toList := by
  have hparts : ∀ parts : List String, c ∈ ("/".intercalate parts).toList →
      c ∈ ['/', '.'] ∨ ∃ part ∈ parts, c ∈ part.toList := by
    intro parts hc
    induction parts with
    | nil => simp at hc
    | cons part parts ih =>
      cases parts with
      | nil => exact .inr ⟨part, List.mem_cons_self, by simpa using hc⟩
      | cons next parts =>
        rw [String.intercalate_cons_cons, String.toList_append, String.toList_append] at hc
        obtain hc | hc := List.mem_append.1 hc
        · obtain hc | hc := List.mem_append.1 hc
          · exact .inr ⟨part, List.mem_cons_self, hc⟩
          · simp_all
        · obtain hslash | ⟨other, hother, hc⟩ := ih hc
          · exact .inl hslash
          · exact .inr ⟨other, List.mem_cons_of_mem _ hother, hc⟩
  by_cases hne : p.parts = []
  · obtain ⟨anchor, parts⟩ := p
    obtain rfl : parts = [] := hne
    left
    cases anchor <;> simp_all [text, Anchor.text]
  · rw [text_of_ne_nil hne, String.toList_append] at h
    obtain hc | hc := List.mem_append.1 h
    · left
      cases hanchor : p.anchor <;> simp_all [Anchor.text]
    · exact hparts p.parts hc

/-- The names in front of the first wildcard have no other characters than the pattern. -/
lemma Glob.Pattern.mem_of_mem_start {pattern name : String} {c : Char}
    (hname : name ∈ (ofString pattern).start.parts) (hc : c ∈ name.toList) :
    c ∈ pattern.toList := by
  have hpiece := literal_mem_of_mem_fixedParts hname
  simp only [ofString, List.mem_append, List.mem_map, List.mem_filter] at hpiece
  obtain ⟨part, ⟨hpart, -⟩, heq⟩ | hlast := hpiece
  · unfold Piece.ofChars at heq
    split_ifs at heq
    obtain rfl := Piece.literal.inj heq
    exact Path.mem_of_mem_splitSlash hpart (by simpa using hc)
  · split at hlast <;> simp at hlast

namespace FileSet

open FileTree

variable {t : FileTree} {root p x : Path} {patterns : List String} {pattern : String}
  {b : Breakdown} {files : List Path}

/-- A path that leads somewhere does not hold the character U+0000. -/
lemma hasNull_of_isDirectory (h : t.isDirectory p = true) : p.hasNull = false := by
  by_contra htrue
  rw [Bool.not_eq_false] at htrue
  simp [FileTree.isDirectory, find?, resolve, htrue, Except.toOption] at h

/-- **A pattern without the character U+0000 can be listed.** -/
lemma isUnlistable_eq_false (hroot : t.isDirectory root = true)
    (hpattern : '\x00' ∉ pattern.toList) :
    (Glob.Pattern.ofString (fullPattern root pattern)).isUnlistable = false := by
  have hfull : '\x00' ∉ (fullPattern root pattern).toList := by
    rw [fullPattern]
    split
    · exact hpattern
    · rename_i hrelative
      intro hc
      obtain hc | ⟨part, hpart, hc⟩ := Path.mem_text hc
      · simp at hc
      · rw [Path.join, if_neg hrelative] at hpart
        obtain hpart | hpart := List.mem_append.1 hpart
        · have hnull := hasNull_of_isDirectory hroot
          rw [Path.hasNull, List.any_eq_false] at hnull
          exact hnull part hpart (List.contains_iff_mem.2 hc)
        · exact hpattern (Path.mem_of_mem_ofString hpart hc)
  rw [Glob.Pattern.isUnlistable, Bool.and_eq_false_iff, Path.hasNull]
  refine .inr (List.any_eq_false.2 fun name hname hc => hfull ?_)
  exact Glob.Pattern.mem_of_mem_start hname (List.contains_iff_mem.1 hc)

/-! ## Obstacles -/

/-- What is in the way of collecting what the path `x` leads to. -/
inductive Bars (t : FileTree) (x : Path) : Breakdown → Prop
  /-- It cannot be told what the path leads to. -/
  | untestable : t.canTest x = false → Bars t x .untestable
  /-- The path leads to a file, but its links go in a circle where they are replaced. -/
  | circular : t.canTest x = true → t.isFile x = true → t.canonical? x = none → Bars t x .circular

lemma pathObstacle?_eq_some_iff : pathObstacle? t x = some b ↔ Bars t x b := by
  unfold pathObstacle?
  cases htest : t.canTest x with
  | false =>
    constructor
    · rintro h
      obtain rfl := Option.some.inj h
      exact .untestable htest
    · rintro (_ | ⟨htrue, -, -⟩)
      · rfl
      · cases htest.symm.trans htrue
  | true =>
    constructor
    · intro h
      simp only [Bool.not_true, Bool.false_eq_true, if_false, Option.ite_none_right_eq_some,
        Bool.and_eq_true, Option.isNone_iff_eq_none] at h
      obtain ⟨⟨hfile, hcanonical⟩, heq⟩ := h
      obtain rfl := Option.some.inj heq
      exact .circular htest hfile hcanonical
    · rintro (hfalse | ⟨-, hfile, hcanonical⟩)
      · cases htest.symm.trans hfalse
      · simp [hfile, hcanonical]

/-- Nothing is in the way if it can be told what a path leads to, and a file has an absolute path.
-/
lemma pathObstacle?_eq_none_iff : pathObstacle? t x = none ↔
    t.canTest x = true ∧ (t.isFile x = true → ∃ f, t.canonical? x = some f) := by
  unfold pathObstacle?
  cases t.canTest x <;> cases t.isFile x <;> cases t.canonical? x <;> simp

/-- What is in the way of collecting the files that a pattern stands for. -/
inductive Obstructs (t : FileTree) (root : Path) (pattern : String) : Breakdown → Prop
  /-- The character U+0000 stands in front of a wildcard. -/
  | null : (Glob.Pattern.ofString (fullPattern root pattern)).isUnlistable = true →
      Obstructs t root pattern .nullCharacter
  /-- There is something in the way of one of the paths; it is the first such path that counts. -/
  | path {b : Breakdown} :
      (Glob.Pattern.ofString (fullPattern root pattern)).isUnlistable = false →
      FirstOf (Bars t) (candidates t root [pattern]) b → Obstructs t root pattern b

/-- What is in the way of some patterns is the character U+0000, or is in the way of one of their
paths. -/
lemma exists_of_obstructs (h : FirstOf (Obstructs t root) patterns b) :
    (∃ pattern ∈ patterns,
      (Glob.Pattern.ofString (fullPattern root pattern)).isUnlistable = true) ∨
      ∃ x ∈ candidates t root patterns, Bars t x b := by
  obtain ⟨pattern, hpattern, hnull | ⟨-, hfirst⟩⟩ := h.exists_mem
  · exact .inl ⟨pattern, hpattern, hnull⟩
  · obtain ⟨x, hx, hbars⟩ := hfirst.exists_mem
    rw [candidates, List.flatMap_singleton] at hx
    exact .inr ⟨x, List.mem_flatMap.2 ⟨pattern, hpattern, hx⟩, hbars⟩

lemma obstacle?_eq : obstacle? t root pattern =
    if (Glob.Pattern.ofString (fullPattern root pattern)).isUnlistable then some .nullCharacter
    else (candidates t root [pattern]).findSome? (pathObstacle? t) := by
  rw [obstacle?, candidates, List.flatMap_singleton]

lemma obstacle?_eq_some_iff : obstacle? t root pattern = some b ↔ Obstructs t root pattern b := by
  have hpaths : (candidates t root [pattern]).findSome? (pathObstacle? t) = some b ↔
      FirstOf (Bars t) (candidates t root [pattern]) b :=
    findSome?_eq_some_iff_firstOf fun _ _ => pathObstacle?_eq_some_iff
  rw [obstacle?_eq]
  split
  · rename_i hnull
    constructor
    · intro h
      obtain rfl := Option.some.inj h
      exact .null hnull
    · rintro (_ | ⟨hfalse, -⟩)
      · rfl
      · cases hnull.symm.trans hfalse
  · rename_i hlistable
    rw [Bool.not_eq_true] at hlistable
    rw [hpaths]
    constructor
    · exact .path hlistable
    · rintro (htrue | ⟨-, hfirst⟩)
      · cases hlistable.symm.trans htrue
      · exact hfirst

/-- Nothing is in the way of collecting the files that the patterns stand for. -/
def Unobstructed (t : FileTree) (root : Path) (patterns : List String) : Prop :=
  patterns.findSome? (obstacle? t root) = none

/-- Nothing is in the way of some patterns if nothing is in the way of any of their paths. -/
lemma unobstructed_iff : Unobstructed t root patterns ↔
    (∀ pattern ∈ patterns,
      (Glob.Pattern.ofString (fullPattern root pattern)).isUnlistable = false) ∧
      ∀ x ∈ candidates t root patterns, pathObstacle? t x = none := by
  have hpattern : ∀ pattern, obstacle? t root pattern = none ↔
      (Glob.Pattern.ofString (fullPattern root pattern)).isUnlistable = false ∧
        ∀ x ∈ (matched t root pattern).map Path.withoutDots, pathObstacle? t x = none := by
    intro pattern
    rw [obstacle?]
    split <;> simp_all [List.findSome?_eq_none_iff]
  simp only [Unobstructed, List.findSome?_eq_none_iff, hpattern, candidates, List.mem_flatMap]
  constructor
  · intro h
    refine ⟨fun pattern hmem => (h pattern hmem).1, ?_⟩
    rintro x ⟨pattern, hmem, hx⟩
    exact (h pattern hmem).2 x hx
  · rintro ⟨hlistable, hpaths⟩ pattern hmem
    exact ⟨hlistable pattern hmem, fun x hx => hpaths x ⟨pattern, hmem, hx⟩⟩

/-! ## Collecting -/

lemma canTest_of_isDirectory (h : t.isDirectory root = true) : t.canTest root = true := by
  cases hresolve : t.resolve true root with
  | error e => simp [FileTree.isDirectory, find?, hresolve, Except.toOption] at h
  | ok r => simp [canTest, hresolve]

lemma canTest_of_isFile (h : t.isFile x = true) : t.canTest x = true := by
  cases hresolve : t.resolve true x with
  | error e => simp [FileTree.isFile, find?, hresolve, Except.toOption] at h
  | ok r => simp [canTest, hresolve]

/-- Collecting is broken off at the root, or by the first pattern that has an obstacle. -/
lemma collect_eq_breakdown_iff_findSome? : collect t root patterns = .error (.breakdown b) ↔
    t.canTest root = false ∧ b = .untestable ∨
      t.isDirectory root = true ∧ patterns.findSome? (obstacle? t root) = some b := by
  unfold collect
  cases hdirectory : t.isDirectory root with
  | true =>
    rw [canTest_of_isDirectory hdirectory]
    cases patterns.findSome? (obstacle? t root) with
    | some c => simp
    | none =>
      simp only [Bool.not_true, Bool.false_eq_true, if_false]
      split <;> simp
  | false => cases t.canTest root <;> simp [eq_comm (a := b)]

/-- **When collecting is broken off, and by what.** -/
lemma collect_eq_breakdown_iff : collect t root patterns = .error (.breakdown b) ↔
    t.canTest root = false ∧ b = .untestable ∨
      t.isDirectory root = true ∧ FirstOf (Obstructs t root) patterns b := by
  rw [collect_eq_breakdown_iff_findSome?,
    findSome?_eq_some_iff_firstOf fun _ _ => obstacle?_eq_some_iff]

/-- Collecting is not broken off if nothing is in the way. -/
lemma collect_ne_breakdown_iff : (∀ b, collect t root patterns ≠ .error (.breakdown b)) ↔
    t.canTest root = true ∧ (t.isDirectory root = true → Unobstructed t root patterns) := by
  simp only [ne_eq, collect_eq_breakdown_iff_findSome?, not_or, not_and, Unobstructed,
    Option.eq_none_iff_forall_ne_some]
  constructor
  · intro h
    refine ⟨?_, fun hdirectory b => (h b).2 hdirectory⟩
    rw [← Bool.not_eq_false]
    exact fun hroot => (h .untestable).1 hroot rfl
  · rintro ⟨hroot, hpatterns⟩ b
    refine ⟨fun hfalse => ?_, fun hdirectory => hpatterns hdirectory b⟩
    cases hroot.symm.trans hfalse

end FileSet

end WorkflowLint
