import Mathlib.Data.List.Basic
import WorkflowLint.FileSet

/-!
# Paths and patterns as texts

A pattern is joined to its root as a path, and is read again from the text of what has been joined.
Nothing is lost on the way: the components of the path are the components of the pattern.

## Main definitions

* `WorkflowLint.Path.IsPart` — a component of a path that has been read.
* `WorkflowLint.Glob.Literal` — a name without characters that have a meaning in patterns.

## Main results

* `WorkflowLint.Path.isPart_of_mem_ofString` — what is read has such components.
* `WorkflowLint.Glob.Pattern.ofString_text` — a written path, read as a pattern.
-/

set_option autoImplicit false

namespace WorkflowLint

namespace Path

/-! ## Texts with slashes -/

lemma splitSlash_ne_nil (cs : List Char) : splitSlash cs ≠ [] := by
  cases cs with
  | nil => simp [splitSlash]
  | cons c cs =>
    rw [splitSlash]
    split
    · simp
    · split <;> simp

/-- A text up to a slash is the first part. -/
lemma splitSlash_append_slash {cs : List Char} (h : '/' ∉ cs) (rest : List Char) :
    splitSlash (cs ++ '/' :: rest) = cs :: splitSlash rest := by
  induction cs with
  | nil =>
    rw [List.nil_append, splitSlash]
    split
    · rename_i hnil
      exact absurd hnil (splitSlash_ne_nil rest)
    · rename_i part parts hparts
      rw [hparts]
      rfl
  | cons c cs ih =>
    rw [List.mem_cons, not_or] at h
    rw [List.cons_append, splitSlash, ih h.2]
    simp [Ne.symm h.1]

/-- A text without slashes is its only part. -/
lemma splitSlash_eq_singleton {cs : List Char} (h : '/' ∉ cs) : splitSlash cs = [cs] := by
  induction cs with
  | nil => rfl
  | cons c cs ih =>
    rw [List.mem_cons, not_or] at h
    rw [splitSlash, ih h.2]
    simp [Ne.symm h.1]

/-- No part has a slash. -/
lemma slash_notMem_of_mem_splitSlash {cs part : List Char} (h : part ∈ splitSlash cs) :
    '/' ∉ part := by
  induction cs generalizing part with
  | nil =>
    obtain rfl := List.mem_singleton.1 h
    exact List.not_mem_nil
  | cons c cs ih =>
    rw [splitSlash] at h
    split at h
    · rename_i hnil
      exact absurd hnil (splitSlash_ne_nil cs)
    · rename_i first parts hparts
      rw [hparts] at ih
      by_cases hc : (c == '/') = true
      · rw [if_pos hc] at h
        obtain rfl | h := List.mem_cons.1 h
        · exact List.not_mem_nil
        · exact ih h
      · rw [if_neg hc] at h
        obtain rfl | h := List.mem_cons.1 h
        · rw [List.mem_cons, not_or]
          exact ⟨fun hslash => hc (beq_iff_eq.2 hslash.symm), ih List.mem_cons_self⟩
        · exact ih (List.mem_cons_of_mem _ h)

/-- The parts have no other characters than the text. -/
lemma mem_of_mem_splitSlash {cs part : List Char} (h : part ∈ splitSlash cs) {c : Char}
    (hc : c ∈ part) : c ∈ cs := by
  induction cs generalizing part with
  | nil =>
    obtain rfl := List.mem_singleton.1 h
    exact hc
  | cons first cs ih =>
    rw [splitSlash] at h
    split at h
    · rename_i hnil
      exact absurd hnil (splitSlash_ne_nil cs)
    · rename_i next parts hparts
      rw [hparts] at ih
      split at h
      · obtain rfl | h := List.mem_cons.1 h
        · cases hc
        · exact List.mem_cons_of_mem _ (ih h hc)
      · obtain rfl | h := List.mem_cons.1 h
        · obtain rfl | hc := List.mem_cons.1 hc
          · exact List.mem_cons_self
          · exact List.mem_cons_of_mem _ (ih List.mem_cons_self hc)
        · exact List.mem_cons_of_mem _ (ih (List.mem_cons_of_mem _ h) hc)

/-- Every other character than a slash is in one of the parts. -/
lemma exists_mem_splitSlash {cs : List Char} {c : Char} (h : c ∈ cs) (hc : c ≠ '/') :
    ∃ part ∈ splitSlash cs, c ∈ part := by
  induction cs with
  | nil => cases h
  | cons first cs ih =>
    rw [splitSlash]
    split
    · rename_i hnil
      exact absurd hnil (splitSlash_ne_nil cs)
    · rename_i part parts hparts
      rw [hparts] at ih
      split
      · rename_i hfirst
        obtain rfl | hrest := List.mem_cons.1 h
        · exact absurd (beq_iff_eq.1 hfirst) hc
        · obtain ⟨other, hother, hmem⟩ := ih hrest
          exact ⟨other, List.mem_cons_of_mem _ hother, hmem⟩
      · obtain rfl | hrest := List.mem_cons.1 h
        · exact ⟨_, List.mem_cons_self, List.mem_cons_self⟩
        · obtain ⟨other, hother, hmem⟩ := ih hrest
          obtain rfl | hother := List.mem_cons.1 hother
          · exact ⟨_, List.mem_cons_self, List.mem_cons_of_mem _ hmem⟩
          · exact ⟨other, List.mem_cons_of_mem _ hother, hmem⟩

/-- Parts without slashes that are written with slashes in between are found again. -/
lemma splitSlash_intercalate {parts : List String} (hparts : parts ≠ [])
    (h : ∀ part ∈ parts, '/' ∉ part.toList) :
    splitSlash ("/".intercalate parts).toList = parts.map String.toList := by
  induction parts with
  | nil => exact absurd rfl hparts
  | cons part parts ih =>
    have hpart := h part (by simp)
    -- the last part has no slash behind it
    cases parts with
    | nil => simpa using splitSlash_eq_singleton hpart
    | cons next parts =>
      have hrest := ih (by simp) fun part hmem => h part (List.mem_cons_of_mem _ hmem)
      rw [String.intercalate_cons_cons, String.toList_append, String.toList_append,
        List.append_assoc, List.map_cons, ← hrest]
      exact splitSlash_append_slash hpart _

/-! ## Components -/

/-- Can `part` be a component of a path that has been read? -/
def IsPart (part : String) : Prop := part ≠ "" ∧ part ≠ "." ∧ '/' ∉ part.toList

instance (part : String) : Decidable (IsPart part) := inferInstanceAs (Decidable (_ ∧ _ ∧ _))

/-- **What is read has components** that are neither empty nor one dot, and have no slashes. -/
lemma isPart_of_mem_ofString {s part : String} (h : part ∈ (ofString s).parts) : IsPart part := by
  obtain ⟨cs, hcs, hpart⟩ := List.mem_filterMap.1 h
  split at hpart
  · cases hpart
  · rename_i hproper
    obtain rfl := Option.some.inj hpart
    simp only [Bool.or_eq_true, List.isEmpty_iff, beq_iff_eq, not_or] at hproper
    refine ⟨fun hempty => hproper.1 ?_, fun hdot => hproper.2 ?_, ?_⟩
    · simpa using congrArg String.toList hempty
    · simpa using congrArg String.toList hdot
    · simpa using slash_notMem_of_mem_splitSlash hcs

/-- The components have no other characters than the text. -/
lemma mem_of_mem_ofString {s part : String} (h : part ∈ (ofString s).parts) {c : Char}
    (hc : c ∈ part.toList) : c ∈ s.toList := by
  obtain ⟨cs, hcs, hpart⟩ := List.mem_filterMap.1 h
  split at hpart
  · cases hpart
  · obtain rfl := Option.some.inj hpart
    exact mem_of_mem_splitSlash hcs (by simpa using hc)

/-- A path that is read holds the character U+0000 if its text does. -/
lemma hasNull_ofString_iff {s : String} : (ofString s).hasNull = true ↔ '\x00' ∈ s.toList := by
  rw [hasNull, List.any_eq_true]
  constructor
  · rintro ⟨part, hpart, hc⟩
    exact mem_of_mem_ofString hpart (List.contains_iff_mem.1 hc)
  · intro h
    obtain ⟨cs, hcs, hc⟩ := exists_mem_splitSlash h (by decide)
    refine ⟨String.ofList cs, List.mem_filterMap.2 ⟨cs, hcs, if_neg ?_⟩, by simpa using hc⟩
    rw [Bool.or_eq_true, List.isEmpty_iff, beq_iff_eq, not_or]
    constructor
    · rintro rfl
      cases hc
    · rintro rfl
      simp at hc

lemma IsPart.toList_ne_nil {part : String} (h : IsPart part) : part.toList ≠ [] :=
  fun hnil => h.1 (String.toList_eq_nil_iff.1 hnil)

/-! ## Written paths -/

/-- A written path starts with its first component. -/
lemma exists_toList_intercalate_cons (part : String) (parts : List String) :
    ∃ after, ("/".intercalate (part :: parts)).toList = part.toList ++ after := by
  cases parts with
  | nil => exact ⟨[], by simp⟩
  | cons next parts =>
    exact ⟨"/".toList ++ ("/".intercalate (next :: parts)).toList, by
      rw [String.intercalate_cons_cons, String.toList_append, String.toList_append,
        List.append_assoc]⟩

/-- A written path ends with its last component. -/
lemma exists_toList_intercalate_append (parts : List String) (last : String) :
    ∃ before, ("/".intercalate (parts ++ [last])).toList = before ++ last.toList := by
  induction parts with
  | nil => exact ⟨[], by simp⟩
  | cons part parts ih =>
    obtain ⟨before, hbefore⟩ := ih
    obtain ⟨next, rest, hrest⟩ := List.exists_cons_of_ne_nil
      (List.append_ne_nil_of_right_ne_nil parts (List.cons_ne_nil last []))
    rw [hrest] at hbefore
    refine ⟨part.toList ++ "/".toList ++ before, ?_⟩
    rw [List.cons_append, hrest, String.intercalate_cons_cons, String.toList_append,
      String.toList_append, hbefore]
    simp only [List.append_assoc]

variable {p : Path}

lemma text_of_ne_nil (hne : p.parts ≠ []) :
    p.text = p.anchor.text ++ "/".intercalate p.parts := by
  obtain ⟨anchor, parts⟩ := p
  cases anchor <;> cases parts <;> first | rfl | exact absurd rfl hne

/-- The anchor of a written path. -/
lemma anchorOf_text (hparts : ∀ part ∈ p.parts, IsPart part) (hne : p.parts ≠ []) :
    anchorOf p.text.toList = p.anchor := by
  obtain ⟨anchor, parts⟩ := p
  obtain ⟨part, rest, rfl⟩ := List.exists_cons_of_ne_nil hne
  obtain ⟨after, hafter⟩ := exists_toList_intercalate_cons part rest
  have hpart : IsPart part := hparts part List.mem_cons_self
  obtain ⟨c, cs, hcs⟩ := List.exists_cons_of_ne_nil hpart.toList_ne_nil
  have hc : c ≠ '/' := by
    rintro rfl
    exact hpart.2.2 (by simp [hcs])
  rw [text_of_ne_nil hne, String.toList_append, hafter, hcs]
  cases anchor <;> simp [anchorOf, Anchor.text, hc]

/-- A written path does not end with a slash. -/
lemma getLast?_text (hparts : ∀ part ∈ p.parts, IsPart part) (hne : p.parts ≠ []) :
    p.text.toList.getLast? ≠ some '/' := by
  obtain ⟨parts, last, hlast⟩ := (List.eq_nil_or_concat' p.parts).resolve_left hne
  have hpart : IsPart last := hparts last (by simp [hlast])
  obtain ⟨before, hbefore⟩ := exists_toList_intercalate_append parts last
  rw [text_of_ne_nil hne, String.toList_append, hlast, hbefore, ← List.append_assoc,
    List.getLast?_append_of_ne_nil _ hpart.toList_ne_nil]
  exact fun hslash => hpart.2.2 (List.mem_of_getLast? hslash)

/-- The parts of a written path are its components. -/
lemma splitSlash_text (hparts : ∀ part ∈ p.parts, IsPart part) (hne : p.parts ≠ []) :
    (splitSlash p.text.toList).filter (fun part => !part.isEmpty) = p.parts.map String.toList := by
  have hslash : ∀ cs, splitSlash ('/' :: cs) = [] :: splitSlash cs :=
    fun cs => splitSlash_append_slash List.not_mem_nil cs
  have hsplit := splitSlash_intercalate hne fun part hmem => (hparts part hmem).2.2
  have hall : (p.parts.map String.toList).filter (fun part => !part.isEmpty) =
      p.parts.map String.toList := by
    refine List.filter_eq_self.2 fun cs hcs => ?_
    obtain ⟨part, hmem, rfl⟩ := List.mem_map.1 hcs
    simpa using (hparts part hmem).1
  -- the slashes of the anchor only add empty parts, which do not count
  have hanchor : ∀ cs,
      (splitSlash (p.anchor.text.toList ++ cs)).filter (fun part => !part.isEmpty) =
        (splitSlash cs).filter fun part => !part.isEmpty := by
    intro cs
    cases p.anchor <;> simp [Anchor.text, hslash]
  rw [text_of_ne_nil hne, String.toList_append, hanchor, hsplit, hall]

/-- **A written path is read back as it was.** -/
lemma ofString_text (hparts : ∀ part ∈ p.parts, IsPart part) (hne : p.parts ≠ []) :
    ofString p.text = p := by
  let read := fun part : List Char =>
    if part.isEmpty || part == ['.'] then none else some (String.ofList part)
  have hnonempty : (splitSlash p.text.toList).filterMap read =
      ((splitSlash p.text.toList).filter fun part => !part.isEmpty).filterMap read := by
    rw [List.filterMap_filter]
    exact List.filterMap_congr fun part _ => by cases part <;> rfl
  have hread : ∀ part ∈ p.parts, read part.toList = some part := by
    intro part hpart
    have hdot : part.toList ≠ ['.'] := fun h => (hparts part hpart).2.1 (String.toList_inj.1 h)
    simp [read, (hparts part hpart).toList_ne_nil, hdot]
  have hall : (splitSlash p.text.toList).filterMap read = p.parts := by
    rw [hnonempty, splitSlash_text hparts hne, List.filterMap_map]
    exact (List.filterMap_congr hread).trans List.filterMap_some
  exact congrArg₂ Path.mk (anchorOf_text hparts hne) hall

/-! ## Paths of one component -/

variable {name : String}

lemma isPart_of_proper (hname : name ∉ ["", ".", ".."]) (h : '/' ∉ name.toList) : IsPart name := by
  simp only [List.mem_cons, List.not_mem_nil, or_false, not_or] at hname
  exact ⟨hname.1, hname.2.1, h⟩

lemma anchorOf_eq_relative {cs : List Char} (h : '/' ∉ cs) : anchorOf cs = .relative := by
  have hnone : cs.takeWhile (· == '/') = [] := by
    cases cs with
    | nil => rfl
    | cons c cs =>
      rw [List.mem_cons, not_or] at h
      simp [Ne.symm h.1]
  rw [anchorOf, hnone]
  rfl

/-- A path of one component. -/
lemma ofString_name (hname : name ∉ ["", ".", ".."]) (h : '/' ∉ name.toList) :
    ofString name = ⟨.relative, [name]⟩ := by
  have hpart := isPart_of_proper hname h
  have hdot : name.toList ≠ ['.'] := fun hdot => hpart.2.1 (String.toList_inj.1 hdot)
  simp only [ofString, anchorOf_eq_relative h, splitSlash_eq_singleton h]
  simp [hpart.toList_ne_nil, hdot]

/-! ### Names of one character, repeated -/

section Replicate

variable {k : Nat} {c d : Char}

lemma eq_of_mem_replicate (h : d ∈ (String.ofList (List.replicate k c)).toList) : d = c := by
  rw [String.toList_ofList] at h
  exact List.eq_of_mem_replicate h

@[simp] lemma utf8ByteSize_replicate :
    (String.ofList (List.replicate k c)).utf8ByteSize = k * c.utf8Size := by
  induction k with
  | zero => simp
  | succ k ih =>
    rw [List.replicate_succ, String.ofList_cons, String.utf8ByteSize_append, ih,
      String.utf8ByteSize_singleton, Nat.succ_mul, Nat.add_comm]

lemma replicate_ne {s : String} (h : k * c.utf8Size ≠ s.utf8ByteSize) :
    String.ofList (List.replicate k c) ≠ s := by
  rintro rfl
  exact h utf8ByteSize_replicate.symm

variable (hk : 2 < k)
include hk

/-- A name of more than two characters has no meaning of its own. -/
lemma proper_replicate : String.ofList (List.replicate k c) ∉ ["", ".", ".."] := by
  have hlength : ∀ s : String, String.ofList (List.replicate k c) = s → k = s.toList.length := by
    rintro _ rfl
    rw [String.toList_ofList, List.length_replicate]
  intro h
  simp only [List.mem_cons, List.not_mem_nil, or_false] at h
  obtain h | h | h := h <;> simp [hlength _ h] at hk

lemma isPart_replicate (hslash : c ≠ '/') : IsPart (String.ofList (List.replicate k c)) :=
  isPart_of_proper (proper_replicate hk) fun hc => hslash (eq_of_mem_replicate hc).symm

lemma ofString_replicate (hslash : c ≠ '/') :
    ofString (String.ofList (List.replicate k c)) =
      ⟨.relative, [String.ofList (List.replicate k c)]⟩ :=
  ofString_name (proper_replicate hk) fun hc => hslash (eq_of_mem_replicate hc).symm

end Replicate

end Path

namespace Glob

/-- Does no character of the name have a meaning in patterns? -/
def Literal (name : String) : Prop := ∀ c ∈ name.toList, c ∉ ['*', '?', '[']

instance (name : String) : Decidable (Literal name) :=
  List.decidableBAll (fun c => c ∉ ['*', '?', '[']) name.toList

lemma literal_replicate {k : Nat} {c : Char} (h : c ∉ ['*', '?', '[']) :
    Literal (String.ofList (List.replicate k c)) := by
  intro d hd
  rwa [Path.eq_of_mem_replicate hd]

/-- A name without such characters stands for itself. -/
lemma Piece.ofChars_of_literal {name : String} (h : Literal name) :
    Piece.ofChars name.toList = .literal name := by
  have hstars : name.toList ≠ ['*', '*'] := fun hstars => h '*' (by simp [hstars]) (by simp)
  have hplain : (name.toList.any fun c => c == '*' || c == '?' || c == '[') = false := by
    refine List.any_eq_false.2 fun c hc => ?_
    have hc := h c hc
    simp only [List.mem_cons, List.not_mem_nil, or_false, not_or] at hc
    simp [hc]
  simp [Piece.ofChars, hstars, hplain]

end Glob

namespace Glob.Pattern

/-- **A written path, read as a pattern**, is its components, each read on its own. -/
lemma ofString_text {p : Path} (hparts : ∀ part ∈ p.parts, Path.IsPart part) (hne : p.parts ≠ []) :
    ofString p.text = ⟨p.anchor, p.parts.map fun part => .ofChars part.toList⟩ := by
  have hlast := Path.getLast?_text hparts hne
  simp only [ofString, Path.anchorOf_text hparts hne, Path.splitSlash_text hparts hne]
  simp [hlast, Function.comp_def]

end Glob.Pattern

end WorkflowLint
