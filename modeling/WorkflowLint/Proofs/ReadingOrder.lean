import Mathlib.Data.List.Basic
import Mathlib.Data.List.Forall2
import Mathlib.Data.List.Perm.Basic
import WorkflowLint.Diagnostic

/-!
# The reading order of diagnostics

Diagnostics are listed by where they start, and those that start at one place in the order in which
they were made. A list with these two properties is unique, so a sorted list can be recognised
without a look at how the sort works.

## Main definitions

* `WorkflowLint.Diagnostic.sameStart` — do two diagnostics start at one place?

## Main results

* `WorkflowLint.Diagnostic.filter_sort` — the sort keeps the order of diagnostics that start at one
  place.
* `WorkflowLint.Diagnostic.eq_sort_of_perm` — a list that is in reading order, and keeps that order,
  is the sorted list.
* `WorkflowLint.Diagnostic.sort_of_separated` — diagnostics that all start before others are listed
  before them.
* `WorkflowLint.Diagnostic.forall₂_sort` — diagnostics that correspond one by one, and start in the
  same order, correspond one by one when sorted.
-/

set_option autoImplicit false

namespace WorkflowLint

/-! ## The order of places -/

namespace Position

lemma le_iff (p q : Position) :
    p.le q = true ↔ p.line < q.line ∨ (p.line = q.line ∧ p.character ≤ q.character) := by
  simp [le]

lemma le_trans {p q r : Position} (hpq : p.le q = true) (hqr : q.le r = true) :
    p.le r = true := by
  rw [le_iff] at *
  omega

lemma le_total (p q : Position) : (p.le q || q.le p) = true := by
  rw [Bool.or_eq_true, le_iff, le_iff]
  omega

lemma le_antisymm_iff (p q : Position) : (p.le q && q.le p) = true ↔ p = q := by
  rw [Bool.and_eq_true, le_iff, le_iff]
  constructor
  · intro h
    have hline : p.line = q.line := by omega
    have hcharacter : p.character = q.character := by omega
    cases p
    cases q
    simp_all
  · rintro rfl
    omega

end Position

namespace Diagnostic

/-- Do two diagnostics start at one place? -/
def sameStart (d e : Diagnostic) : Bool := d.startsBy e && e.startsBy d

lemma sameStart_iff (d e : Diagnostic) : d.sameStart e = true ↔ d.range.start = e.range.start :=
  Position.le_antisymm_iff _ _

lemma startsBy_trans (d e f : Diagnostic) (hde : d.startsBy e = true)
    (hef : e.startsBy f = true) : d.startsBy f = true :=
  Position.le_trans hde hef

lemma startsBy_total (d e : Diagnostic) : (d.startsBy e || e.startsBy d) = true :=
  Position.le_total _ _

/-! ## The sorted list -/

lemma sort_perm (ds : List Diagnostic) : List.Perm (sort ds) ds :=
  List.mergeSort_perm ds startsBy

lemma sort_pairwise (ds : List Diagnostic) :
    (sort ds).Pairwise fun d e => d.startsBy e = true :=
  List.pairwise_mergeSort startsBy_trans startsBy_total ds

/-- **The sort is stable.** It keeps the order of diagnostics that start at one place.

**Proof sketch.** Those of the given list are in reading order, so they are a sublist of the sorted
list; and there are no more of them in it. -/
lemma filter_sort (d : Diagnostic) (ds : List Diagnostic) :
    (sort ds).filter d.sameStart = ds.filter d.sameStart := by
  have hsorted : (ds.filter d.sameStart).Pairwise fun e e' => e.startsBy e' = true := by
    rw [List.pairwise_iff_forall_sublist]
    intro e e' hsub
    have he := List.of_mem_filter (hsub.subset (List.mem_cons_self ..))
    have he' := List.of_mem_filter (hsub.subset (List.mem_cons_of_mem _ (List.mem_cons_self ..)))
    rw [sameStart_iff] at he he'
    rw [startsBy, ← he, ← he', Position.le_iff]
    omega
  have hsub : (ds.filter d.sameStart).Sublist (sort ds) :=
    List.sublist_mergeSort startsBy_trans startsBy_total hsorted List.filter_sublist
  have hfilter := hsub.filter d.sameStart
  simp only [List.filter_filter, Bool.and_self] at hfilter
  have hlength := ((sort_perm ds).filter d.sameStart).length_eq
  exact (hfilter.eq_of_length hlength.symm).symm

/-- **A list in reading order is determined by its parts that start at one place.**

**Proof sketch.** Induction on the list. The two first diagnostics start at one place, because each
starts by the other; so each is the first of its part, and the parts are the same. -/
lemma eq_of_perm_of_filter_eq {ds es : List Diagnostic} (hperm : List.Perm ds es)
    (hds : ds.Pairwise fun d e => d.startsBy e = true)
    (hes : es.Pairwise fun d e => d.startsBy e = true)
    (hfilter : ∀ d, ds.filter (sameStart d) = es.filter (sameStart d)) : ds = es := by
  induction ds generalizing es with
  | nil => exact hperm.nil_eq
  | cons d ds ih =>
    cases es with
    | nil => exact absurd hperm.length_eq (by simp)
    | cons e es =>
      have hrefl : ∀ d : Diagnostic, d.sameStart d = true := fun d => (sameStart_iff d d).2 rfl
      rw [List.pairwise_cons] at hds hes
      have hde : d.startsBy e = true := by
        rcases List.mem_cons.1 (hperm.symm.subset (List.mem_cons_self ..)) with rfl | hmem
        · exact (Bool.and_eq_true_iff.1 (hrefl _)).1
        · exact hds.1 e hmem
      have hed : e.startsBy d = true := by
        rcases List.mem_cons.1 (hperm.subset (List.mem_cons_self ..)) with rfl | hmem
        · exact (Bool.and_eq_true_iff.1 (hrefl _)).1
        · exact hes.1 d hmem
      have hsame : d.sameStart e = true := Bool.and_eq_true_iff.2 ⟨hde, hed⟩
      have hparts := hfilter d
      rw [List.filter_cons_of_pos (hrefl d), List.filter_cons_of_pos hsame] at hparts
      obtain rfl := (List.cons.inj hparts).1
      refine congrArg (d :: ·) (ih hperm.cons_inv hds.2 hes.2 fun c => ?_)
      have hc := hfilter c
      rw [List.filter_cons, List.filter_cons] at hc
      split at hc
      · exact (List.cons.inj hc).2
      · exact hc

/-- **The sorted list is the only one** that is in reading order and keeps the order of diagnostics
that start at one place. -/
lemma eq_sort_of_perm {ds es : List Diagnostic} (hperm : List.Perm es ds)
    (hes : es.Pairwise fun d e => d.startsBy e = true)
    (hfilter : ∀ d, es.filter (sameStart d) = ds.filter (sameStart d)) : es = sort ds := by
  refine eq_of_perm_of_filter_eq (hperm.trans (sort_perm ds).symm) hes (sort_pairwise ds) ?_
  intro d
  rw [hfilter, filter_sort]

/-- None of the diagnostics starts where `d` does if they are all on other lines. -/
lemma filter_sameStart_eq_nil {d : Diagnostic} {ds : List Diagnostic}
    (h : ∀ e ∈ ds, d.range.start.line ≠ e.range.start.line) : ds.filter d.sameStart = [] := by
  rw [List.filter_eq_nil_iff]
  intro e he hsame
  apply h e he
  rw [(sameStart_iff d e).1 hsame]

/-- **Diagnostics that all start before others are listed before them**, wherever they were made in
between. -/
lemma sort_of_separated {before low high : List Diagnostic} {line : Int}
    (hlow : ∀ d ∈ low, d.range.start.line ≤ line)
    (hbefore : ∀ d ∈ before, line < d.range.start.line)
    (hhigh : ∀ d ∈ high, line < d.range.start.line) :
    sort (before ++ low ++ high) = sort low ++ sort (before ++ high) := by
  have habove : ∀ d ∈ before ++ high, line < d.range.start.line := by
    intro d hd
    rcases List.mem_append.1 hd with hd | hd
    · exact hbefore d hd
    · exact hhigh d hd
  symm
  apply eq_sort_of_perm
  · have hmove : List.Perm (low ++ (before ++ high)) (before ++ low ++ high) := by
      rw [← List.append_assoc]
      exact List.perm_append_comm.append_right high
    exact ((sort_perm low).append (sort_perm (before ++ high))).trans hmove
  · rw [List.pairwise_append]
    refine ⟨sort_pairwise low, sort_pairwise _, fun d hd e he => ?_⟩
    have hdline := hlow d ((sort_perm low).subset hd)
    have heline := habove e ((sort_perm _).subset he)
    rw [startsBy, Position.le_iff]
    omega
  · intro d
    rw [List.filter_append, filter_sort, filter_sort, List.filter_append, List.filter_append,
      List.filter_append]
    -- the diagnostics that start where `d` does are all below the line, or all above it
    by_cases hd : d.range.start.line ≤ line
    · have hbefore_nil : before.filter d.sameStart = [] :=
        filter_sameStart_eq_nil fun e he => Int.ne_of_lt (Int.lt_of_le_of_lt hd (hbefore e he))
      have hhigh_nil : high.filter d.sameStart = [] :=
        filter_sameStart_eq_nil fun e he => Int.ne_of_lt (Int.lt_of_le_of_lt hd (hhigh e he))
      rw [hbefore_nil, hhigh_nil]
      simp
    · have hlow_nil : low.filter d.sameStart = [] := by
        apply filter_sameStart_eq_nil
        intro e he
        have hline := hlow e he
        omega
      rw [hlow_nil]
      simp

/-- **Corresponding diagnostics are sorted alike**, if the correspondence keeps the order of their
starts.

**Proof sketch.** Sort the pairs of corresponding diagnostics by their first parts, which is to sort
them by their second parts. The two parts of the sorted pairs are the two sorted lists. -/
lemma forall₂_sort {R : Diagnostic → Diagnostic → Prop} {ds ds' : List Diagnostic}
    (h : List.Forall₂ R ds ds')
    (horder : ∀ {d d' e e'}, R d d' → R e e' → d.startsBy e = d'.startsBy e') :
    List.Forall₂ R (sort ds) (sort ds') := by
  obtain ⟨hlength, hR⟩ := List.forall₂_iff_zip.1 h
  have hfst : ds = (ds.zip ds').map Prod.fst := (List.map_fst_zip (Nat.le_of_eq hlength)).symm
  have hsnd : ds' = (ds.zip ds').map Prod.snd := (List.map_snd_zip (Nat.le_of_eq hlength.symm)).symm
  have hpair : ∀ z ∈ ds.zip ds', R z.1 z.2 := fun z hz => hR hz
  generalize ds.zip ds' = zs at hfst hsnd hpair
  subst hfst hsnd
  have hleft : (zs.mergeSort fun y z => y.1.startsBy z.1).map Prod.fst =
      sort (zs.map Prod.fst) :=
    List.map_mergeSort fun _ _ _ _ => rfl
  have hright : (zs.mergeSort fun y z => y.1.startsBy z.1).map Prod.snd =
      sort (zs.map Prod.snd) :=
    List.map_mergeSort fun y hy z hz => horder (hpair y hy) (hpair z hz)
  rw [← hleft, ← hright, List.forall₂_map_left_iff, List.forall₂_map_right_iff, List.forall₂_same]
  intro z hz
  exact hpair z ((List.mergeSort_perm _ _).subset hz)

end Diagnostic

end WorkflowLint
