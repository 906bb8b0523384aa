import WorkflowLint.Proofs.PlainTree

/-!
# What patterns stand for

The expansion of a pattern walks through a file tree and lists the paths that it comes to, some of
them more than once. Here it is said which paths these are: the meaning of a pattern is given
component by component, over what is to be seen below a place, and the expansion lists the paths of
that meaning and no others. Its bound on the depth is never reached, since no path is that long.

## Main definitions

* `WorkflowLint.Glob.Chain` — names that lead down through a view.
* `WorkflowLint.Glob.Leads` — the components of a pattern lead to a place.

## Main results

* `WorkflowLint.Glob.mem_below` — what lies below a place.
* `WorkflowLint.Glob.mem_expandFrom` — the expansion lists the places that its components lead to.
* `WorkflowLint.Glob.isFile_and_mem_expand` — the files that a pattern stands for.
-/

set_option autoImplicit false

namespace WorkflowLint.Glob

open FileTree

/-! ## The meaning of components -/

/-- The names `d` lead down through the view, through directories only if that is asked for. -/
def Chain (view : View) (directoriesOnly : Bool) : List String → Prop
  | [] => True
  | name :: d => name ∈ view.names ∧
      (directoriesOnly = true → view.listsDirectory name = true) ∧
      Chain (view.under [name]) directoriesOnly d

/-- One component leads down along the names `d`: a name leads to itself, a wildcard to a name that
fits it, and any number of directories all the way down. -/
def Steps (view : View) (isLast : Bool) : Piece → List String → Prop
  | .literal name, d => d = [name] ∧ (view d).isSome = true
  | .wildcard w, d => ∃ name ∈ view.names, d = [name] ∧ w.accepts name.toList = true ∧
      (isLast = true ∨ view.listsDirectory name = true)
  | .anyDepth, d => Chain view (!isLast) d
  | .directoryOnly, d => d = [] ∧ view.isDirectory = true

/-- The components of a pattern, one after the other, lead down along the names `q`. -/
def Leads (view : View) : List Piece → List String → Prop
  | [], q => q = []
  | piece :: pieces, q => ∃ d r, q = d ++ r ∧ Steps view pieces.isEmpty piece d ∧
      Leads (view.under d) pieces r

/-! ## Views that are shown -/

variable {t : FileTree} {p x : Path} {view : View} {directoriesOnly : Bool} {d q : List String}
  {pieces : List Piece}

section Shown

variable (h : t.Shows p view)
include h

lemma names_eq : t.names p = view.names := by
  rw [FileTree.names, View.names, ← h.find (List.forall_mem_nil _), Path.down_nil]

lemma isDirectory_eq : t.isDirectory p = view.isDirectory := by
  rw [FileTree.isDirectory, View.isDirectory, ← h.find (List.forall_mem_nil _), Path.down_nil]

/-- The names in a directory have no meaning of their own. -/
lemma proper_of_mem_names {name : String} (hname : name ∈ view.names) : Proper [name] := by
  rw [View.names] at hname
  cases hn : view [] with
  | none => simp [hn] at hname
  | some n => exact h.proper hn name (by simpa [hn] using hname)

/-- No entry that is listed is a link, so that the listing tells what it is. -/
lemma listsDirectory_eq (name : String) :
    Pattern.listsDirectory t p name = view.listsDirectory name := by
  have hfind : t.find? p = view [] := by
    rw [← h.find (List.forall_mem_nil _), Path.down_nil]
  rw [Pattern.listsDirectory, View.listsDirectory, hfind]
  cases hchild : (view []).bind (·.child? name) with
  | none => rfl
  | some m =>
    obtain ⟨n, hn, hm⟩ := Option.bind_eq_some_iff.1 hchild
    have hlink := h.isLink hn hm
    cases m with
    | link target => cases hlink
    | _ => rfl

end Shown

/-- **What lies below a place**, down to some depth.

**Proof sketch.** Induction on the depth. What has been listed is an entry of the directory, or lies
below one. -/
lemma mem_below (h : t.Shows p view) (depth : Nat) :
    x ∈ Pattern.below t directoriesOnly depth p ↔
      ∃ d, d ≠ [] ∧ d.length ≤ depth ∧ Chain view directoriesOnly d ∧ x = p.down d := by
  induction depth generalizing p view with
  | zero =>
    rw [Pattern.below]
    constructor
    · intro hx
      cases hx
    · rintro ⟨d, hd, hlength, -⟩
      exact absurd (List.eq_nil_of_length_eq_zero (Nat.le_zero.1 hlength)) hd
  | succ depth ih =>
    rw [Pattern.below, List.mem_flatMap, names_eq h]
    constructor
    · rintro ⟨name, hname, hx⟩
      have hunder := h.under (proper_of_mem_names h hname)
      change x ∈ ite _ _ _ at hx
      rw [listsDirectory_eq h] at hx
      split at hx
      · cases hx
      rename_i hdirectory
      have hgo : directoriesOnly = true → view.listsDirectory name = true := by
        simpa using hdirectory
      obtain rfl | hx := List.mem_cons.1 hx
      · exact ⟨[name], List.cons_ne_nil _ _, Nat.succ_le_succ (Nat.zero_le _),
          ⟨hname, hgo, trivial⟩, rfl⟩
      · obtain ⟨d, -, hlength, hchain, rfl⟩ := (ih hunder).1 hx
        exact ⟨name :: d, List.cons_ne_nil _ _, Nat.succ_le_succ hlength, ⟨hname, hgo, hchain⟩,
          Path.down_down p [name] d⟩
    · rintro ⟨_ | ⟨name, d⟩, hd, hlength, hchain, rfl⟩
      · exact absurd rfl hd
      obtain ⟨hname, hgo, hchain⟩ := hchain
      have hunder := h.under (proper_of_mem_names h hname)
      refine ⟨name, hname, ?_⟩
      change _ ∈ ite _ _ _
      rw [listsDirectory_eq h, if_neg (by simpa using hgo), List.mem_cons]
      cases d with
      | nil => exact .inl rfl
      | cons next d =>
        refine .inr ((ih hunder).2 ⟨next :: d, List.cons_ne_nil _ _, ?_, hchain, ?_⟩)
        · exact Nat.le_of_succ_le_succ hlength
        · exact (Path.down_down p [name] (next :: d)).symm

/-! ## Chains -/

lemma Chain.append {e : List String} (hd : Chain view directoriesOnly d)
    (he : Chain (view.under d) directoriesOnly e) : Chain view directoriesOnly (d ++ e) := by
  induction d generalizing view with
  | nil => exact he
  | cons name d ih => exact ⟨hd.1, hd.2.1, ih hd.2.2 (by rwa [View.under_under])⟩

/-- A chain that goes on has a directory to go on in. -/
lemma Chain.mem_names {name : String} {e : List String}
    (h : Chain view directoriesOnly (d ++ name :: e)) : name ∈ (view.under d).names := by
  induction d generalizing view with
  | nil => exact h.1
  | cons first d ih =>
    rw [← List.singleton_append, ← View.under_under]
    exact ih h.2.2

lemma Chain.proper (h : t.Shows p view) (hd : Chain view directoriesOnly d) : Proper d := by
  induction d generalizing p view with
  | nil => exact List.forall_mem_nil _
  | cons name d ih =>
    have hname := proper_of_mem_names h hd.1
    exact hname.append (ih (h.under hname) hd.2.2)

/-- No chain is longer than paths may be. -/
lemma Chain.length_le (h : t.Shows p view) (hd : Chain view directoriesOnly d) :
    d.length ≤ pathLimit := by
  obtain rfl | ⟨d, last, rfl⟩ := List.eq_nil_or_concat' d
  · exact Nat.zero_le _
  · have hlast : last ∈ (view.under d).names := hd.mem_names
    -- the last name is listed, but may be too far away to be found: the bound is on the one before
    cases hn : view.under d [] with
    | none => simp [View.names, hn] at hlast
    | some n =>
      rw [View.under, List.append_nil] at hn
      rw [List.length_append]
      exact h.length_lt hn

/-- What is found is found along a chain. -/
lemma chain_of_eq_some (h : t.Shows p view) {n : Node} (hn : view d = some n)
    (hdirectory : directoriesOnly = true → n.isDirectory = true) :
    Chain view directoriesOnly d := by
  induction d generalizing p view with
  | nil => trivial
  | cons name d ih =>
    obtain ⟨entries, m, hview, hm, hfound⟩ := h.closed (q := []) hn
    have hname : name ∈ view.names := by
      rw [View.names, hview]
      exact Node.mem_names_of_lookup hm
    refine ⟨hname, fun hgo => ?_, ih (h.under (proper_of_mem_names h hname)) hn⟩
    have hlists : view.listsDirectory name = m.isDirectory := by
      simp [View.listsDirectory, hview, Node.child?, hm]
    rw [hlists]
    cases d with
    | nil =>
      obtain rfl := Option.some.inj (hn.symm.trans hfound)
      exact hdirectory hgo
    | cons next d =>
      obtain ⟨entries, -, hnext, -⟩ := h.closed (q := [name]) hn
      obtain rfl := Option.some.inj (hnext.symm.trans hfound)
      rfl

section Full

variable (hfull : view.Full)
include hfull

/-- If whatever is listed is found, a chain leads to something. -/
lemma Chain.eq_nil_or_isSome (h : Chain view directoriesOnly d) :
    d = [] ∨ (view d).isSome = true := by
  obtain rfl | ⟨d, last, rfl⟩ := List.eq_nil_or_concat' d
  · exact .inl rfl
  · have hlast : last ∈ (view.under d).names := h.mem_names
    cases hn : view.under d [] with
    | none => simp [View.names, hn] at hlast
    | some n =>
      rw [View.names, hn] at hlast
      exact .inr ((hfull.under d) [] n hn last hlast)

lemma Steps.eq_nil_or_isSome {isLast : Bool} {piece : Piece} (h : Steps view isLast piece d) :
    d = [] ∨ (view d).isSome = true := by
  cases piece with
  | literal name => exact .inr h.2
  | wildcard w =>
    obtain ⟨name, hname, rfl, -⟩ := h
    exact (show Chain view false [name] from ⟨hname, nofun, trivial⟩).eq_nil_or_isSome hfull
  | anyDepth => exact Chain.eq_nil_or_isSome hfull h
  | directoryOnly => exact .inl h.1

/-- The components of a pattern lead nowhere else than to where they start, or to something. -/
lemma Leads.eq_nil_or_isSome (h : Leads view pieces q) : q = [] ∨ (view q).isSome = true := by
  induction pieces generalizing view q with
  | nil => exact .inl h
  | cons piece pieces ih =>
    obtain ⟨d, r, rfl, hd, hr⟩ := h
    obtain rfl | hr := ih (hfull.under d) hr
    · rw [List.append_nil]
      exact hd.eq_nil_or_isSome hfull
    · exact .inr hr

end Full

/-! ## Expansion -/

/-- **A component adds the places that it leads to**, and no others. -/
lemma mem_step (h : t.Shows p view) {isLast : Bool} {piece : Piece}
    (hliteral : ∀ name, piece = .literal name → Proper [name]) :
    x ∈ Pattern.step t isLast p piece ↔ ∃ d, x = p.down d ∧ Steps view isLast piece d := by
  cases piece with
  | literal name =>
    have hcontains : t.contains (p.extend name) = (view [name]).isSome :=
      h.contains (hliteral name rfl) (List.cons_ne_nil _ _)
    simp only [Pattern.step, hcontains, Steps]
    constructor
    · intro hx
      split at hx
      · rename_i hsome
        obtain rfl := List.mem_singleton.1 hx
        exact ⟨[name], rfl, rfl, hsome⟩
      · cases hx
    · rintro ⟨_, rfl, rfl, hsome⟩
      rw [if_pos hsome]
      exact List.mem_singleton.2 rfl
  | wildcard w =>
    simp only [Pattern.step, names_eq h, List.mem_filterMap, List.mem_filter, Steps]
    constructor
    · rintro ⟨name, ⟨hname, haccepts⟩, hx⟩
      rw [listsDirectory_eq h] at hx
      split at hx
      · rename_i hgo
        obtain rfl := Option.some.inj hx
        exact ⟨[name], rfl, name, hname, rfl, haccepts, by simpa using hgo⟩
      · cases hx
    · rintro ⟨_, rfl, name, hname, rfl, haccepts, hgo⟩
      refine ⟨name, ⟨hname, haccepts⟩, ?_⟩
      rw [listsDirectory_eq h, if_pos (by simpa using hgo)]
      rfl
  | anyDepth =>
    simp only [Pattern.step, List.mem_cons, mem_below h, Steps]
    constructor
    · rintro (rfl | ⟨d, -, -, hchain, rfl⟩)
      · exact ⟨[], x.down_nil.symm, trivial⟩
      · exact ⟨d, rfl, hchain⟩
    · rintro ⟨d, rfl, hchain⟩
      -- no directories at all are not listed below, but in front
      by_cases hd : d = []
      · subst hd
        exact .inl p.down_nil
      · exact .inr ⟨d, hd, hchain.length_le h, hchain, rfl⟩
  | directoryOnly =>
    simp only [Pattern.step, isDirectory_eq h, Steps]
    constructor
    · intro hx
      split at hx
      · rename_i hdirectory
        obtain rfl := List.mem_singleton.1 hx
        exact ⟨[], x.down_nil.symm, rfl, hdirectory⟩
      · cases hx
    · rintro ⟨_, rfl, rfl, hdirectory⟩
      rw [if_pos hdirectory, p.down_nil]
      exact List.mem_singleton.2 rfl

/-- What a component leads to has no meaning of its own. -/
lemma Steps.proper (h : t.Shows p view) {isLast : Bool} {piece : Piece}
    (hliteral : ∀ name, piece = .literal name → Proper [name]) (hd : Steps view isLast piece d) :
    Proper d := by
  cases piece with
  | literal name =>
    obtain ⟨rfl, -⟩ := hd
    exact hliteral name rfl
  | wildcard w =>
    obtain ⟨name, hname, rfl, -⟩ := hd
    exact proper_of_mem_names h hname
  | anyDepth => exact Chain.proper h hd
  | directoryOnly =>
    obtain ⟨rfl, -⟩ := hd
    exact List.forall_mem_nil _

/-- The names in a pattern have no meaning of their own. -/
def ProperLiterals (pieces : List Piece) : Prop :=
  ∀ name, Piece.literal name ∈ pieces → Proper [name]

lemma ProperLiterals.head {piece : Piece} (h : ProperLiterals (piece :: pieces)) :
    ∀ name, piece = .literal name → Proper [name] := by
  rintro name rfl
  exact h name List.mem_cons_self

lemma ProperLiterals.tail {piece : Piece} (h : ProperLiterals (piece :: pieces)) :
    ProperLiterals pieces :=
  fun name hname => h name (List.mem_cons_of_mem _ hname)

lemma Leads.proper (h : t.Shows p view) (hliterals : ProperLiterals pieces)
    (hq : Leads view pieces q) : Proper q := by
  induction pieces generalizing p view q with
  | nil =>
    obtain rfl : q = [] := hq
    exact List.forall_mem_nil _
  | cons piece pieces ih =>
    obtain ⟨d, r, rfl, hd, hr⟩ := hq
    have hproper := hd.proper h hliterals.head
    exact hproper.append (ih (h.under hproper) hliterals.tail hr)

/-- **The expansion lists the places that its components lead to**, and no others. -/
lemma mem_expandFrom (h : t.Shows p view) (hliterals : ProperLiterals pieces) :
    x ∈ Pattern.expandFrom t pieces p ↔ ∃ q, x = p.down q ∧ Leads view pieces q := by
  induction pieces generalizing p view with
  | nil =>
    rw [Pattern.expandFrom, List.mem_singleton]
    constructor
    · rintro rfl
      exact ⟨[], x.down_nil.symm, rfl⟩
    · rintro ⟨_, rfl, rfl⟩
      exact p.down_nil
  | cons piece pieces ih =>
    rw [Pattern.expandFrom, List.mem_flatMap]
    constructor
    · rintro ⟨y, hy, hx⟩
      obtain ⟨d, rfl, hd⟩ := (mem_step h hliterals.head).1 hy
      have hunder := h.under (hd.proper h hliterals.head)
      obtain ⟨r, rfl, hr⟩ := (ih hunder hliterals.tail).1 hx
      exact ⟨d ++ r, p.down_down d r, d, r, rfl, hd, hr⟩
    · rintro ⟨_, rfl, d, r, rfl, hd, hr⟩
      have hunder := h.under (hd.proper h hliterals.head)
      exact ⟨p.down d, (mem_step h hliterals.head).2 ⟨d, rfl, hd⟩,
        (ih hunder hliterals.tail).2 ⟨r, (p.down_down d r).symm, hr⟩⟩

/-! ## Whole patterns -/

/-- The names in front of the first component with a meaning of its own lead to themselves. -/
lemma Leads.exists_fixedParts (hq : Leads view pieces q) :
    ∃ r, q = Pattern.fixedParts pieces ++ r ∧
      Leads (view.under (Pattern.fixedParts pieces))
        (pieces.drop (Pattern.fixedParts pieces).length) r := by
  induction pieces generalizing view q with
  | nil => exact ⟨q, rfl, hq⟩
  | cons piece pieces ih =>
    cases piece with
    | literal name =>
      obtain ⟨_, _, rfl, ⟨rfl, -⟩, hrest⟩ := hq
      obtain ⟨r, rfl, hr⟩ := ih hrest
      rw [View.under_under] at hr
      exact ⟨r, rfl, hr⟩
    | wildcard w => exact ⟨q, rfl, hq⟩
    | anyDepth => exact ⟨q, rfl, hq⟩
    | directoryOnly => exact ⟨q, rfl, hq⟩

/-- Where something is found, there is something all the way. -/
lemma isSome_of_append (h : t.Shows p view) {r : List String} (hr : (view (q ++ r)).isSome = true) :
    (view q).isSome = true := by
  cases r with
  | nil => rwa [List.append_nil] at hr
  | cons name r =>
    obtain ⟨n, hn⟩ := Option.isSome_iff_exists.1 hr
    obtain ⟨entries, m, hview, -⟩ := h.closed hn
    rw [hview]
    rfl

lemma leads_of_fixedParts (h : t.Shows p view) (hliterals : ProperLiterals pieces) {r : List String}
    (hr : Leads (view.under (Pattern.fixedParts pieces))
      (pieces.drop (Pattern.fixedParts pieces).length) r)
    (hfound : (view (Pattern.fixedParts pieces ++ r)).isSome = true) :
    Leads view pieces (Pattern.fixedParts pieces ++ r) := by
  induction pieces generalizing p view with
  | nil => exact hr
  | cons piece pieces ih =>
    cases piece with
    | literal name =>
      have hname := hliterals name List.mem_cons_self
      refine ⟨[name], Pattern.fixedParts pieces ++ r, rfl, ⟨rfl, isSome_of_append h hfound⟩, ?_⟩
      refine ih (h.under hname) hliterals.tail ?_ hfound
      rw [View.under_under]
      exact hr
    | wildcard w => exact hr
    | anyDepth => exact hr
    | directoryOnly => exact hr

lemma fixedParts_append (parts : List String) (pieces : List Piece) :
    Pattern.fixedParts (parts.map .literal ++ pieces) = parts ++ Pattern.fixedParts pieces := by
  induction parts with
  | nil => rfl
  | cons part parts ih => exact congrArg (part :: ·) ih

section Whole

variable (t : FileTree) (p : Path)

lemma start_append : Pattern.start ⟨p.anchor, p.parts.map .literal ++ pieces⟩ =
    p.down (Pattern.fixedParts pieces) :=
  congrArg (Path.mk p.anchor) (fixedParts_append p.parts pieces)

lemma any_isMagic_append (parts : List String) :
    (parts.map Piece.literal ++ pieces).any Piece.isMagic = pieces.any Piece.isMagic := by
  rw [List.any_append, List.any_map]
  simp [Function.comp_def, Piece.isMagic]

/-- A pattern that starts with names is expanded from where they lead. -/
lemma expand_of_isMagic (hmagic : pieces.any Piece.isMagic = true) :
    Pattern.expand t ⟨p.anchor, p.parts.map .literal ++ pieces⟩ =
      (Pattern.expandFrom t (pieces.drop (Pattern.fixedParts pieces).length)
        (p.down (Pattern.fixedParts pieces))).filter fun x => x.isAbsolute || !x.parts.isEmpty := by
  have hdrop : (p.parts.map Piece.literal ++ pieces).drop
      (p.parts ++ Pattern.fixedParts pieces).length =
        pieces.drop (Pattern.fixedParts pieces).length := by
    rw [List.length_append, ← List.length_map Piece.literal, List.drop_append]
    simp
  rw [Pattern.expand, any_isMagic_append, if_pos hmagic, start_append]
  exact congrArg (fun pieces => (Pattern.expandFrom t pieces _).filter _) hdrop

/-- A pattern of names stands for the path that it is, if that leads anywhere. -/
lemma expand_of_not_isMagic (hmagic : pieces.any Piece.isMagic = false)
    (hplain : .directoryOnly ∉ pieces) :
    Pattern.expand t ⟨p.anchor, p.parts.map .literal ++ pieces⟩ =
      if t.contains (p.down (Pattern.fixedParts pieces)) then [p.down (Pattern.fixedParts pieces)]
      else [] := by
  have hcontains : (p.parts.map Piece.literal ++ pieces).contains .directoryOnly = false := by
    rw [Bool.eq_false_iff, ne_eq, List.contains_iff_mem, List.mem_append, not_or]
    exact ⟨by simp, hplain⟩
  rw [Pattern.expand, any_isMagic_append, hmagic, start_append, if_neg Bool.false_ne_true]
  dsimp only
  rw [hcontains, if_neg Bool.false_ne_true]

end Whole

lemma literal_mem_of_mem_fixedParts {name : String} (h : name ∈ Pattern.fixedParts pieces) :
    Piece.literal name ∈ pieces := by
  induction pieces with
  | nil => cases h
  | cons piece pieces ih =>
    cases piece with
    | literal first =>
      obtain rfl | hrest := List.mem_cons.1 h
      · exact List.mem_cons_self
      · exact List.mem_cons_of_mem _ (ih hrest)
    | wildcard w => cases h
    | anyDepth => cases h
    | directoryOnly => cases h

/-- What is no wildcard and asks for no directory is a name. -/
lemma drop_fixedParts_of_not_isMagic (hmagic : pieces.any Piece.isMagic = false)
    (hplain : .directoryOnly ∉ pieces) :
    pieces.drop (Pattern.fixedParts pieces).length = [] := by
  induction pieces with
  | nil => rfl
  | cons piece pieces ih =>
    rw [List.any_cons, Bool.or_eq_false_iff] at hmagic
    rw [List.mem_cons, not_or] at hplain
    cases piece with
    | literal name => exact ih hmagic.2 hplain.2
    | wildcard w => exact absurd hmagic.1 (by simp [Piece.isMagic])
    | anyDepth => exact absurd hmagic.1 (by simp [Piece.isMagic])
    | directoryOnly => exact absurd rfl hplain.1

section Literals

variable (hliterals : ProperLiterals pieces)
include hliterals

lemma proper_fixedParts : Proper (Pattern.fixedParts pieces) := fun name hname =>
  hliterals name (literal_mem_of_mem_fixedParts hname) name (List.mem_singleton.2 rfl)

lemma properLiterals_drop (k : Nat) : ProperLiterals (pieces.drop k) :=
  fun name hname => hliterals name ((List.drop_sublist k pieces).subset hname)

/-- Whatever a pattern stands for lies below the names with which it starts. -/
lemma exists_down_of_mem_expand (h : t.Shows p view) (hplain : .directoryOnly ∉ pieces)
    (hx : x ∈ Pattern.expand t ⟨p.anchor, p.parts.map .literal ++ pieces⟩) :
    ∃ q, Proper q ∧ x = p.down q := by
  have hfixed := proper_fixedParts hliterals
  have hrest := properLiterals_drop hliterals (Pattern.fixedParts pieces).length
  cases hmagic : pieces.any Piece.isMagic with
  | true =>
    rw [expand_of_isMagic t p hmagic, List.mem_filter, mem_expandFrom (h.under hfixed) hrest] at hx
    obtain ⟨⟨r, rfl, hr⟩, -⟩ := hx
    exact ⟨_, hfixed.append (hr.proper (h.under hfixed) hrest), Path.down_down _ _ _⟩
  | false =>
    rw [expand_of_not_isMagic t p hmagic hplain] at hx
    split at hx
    · exact ⟨_, hfixed, List.mem_singleton.1 hx⟩
    · cases hx

/-- Whatever a pattern stands for is there, except perhaps for the names with which it starts. -/
lemma eq_fixedParts_or_isSome_of_mem_expand (h : t.Shows p view) (hfull : view.Full)
    (hplain : .directoryOnly ∉ pieces)
    (hx : x ∈ Pattern.expand t ⟨p.anchor, p.parts.map .literal ++ pieces⟩) :
    ∃ q, x = p.down q ∧ (q = Pattern.fixedParts pieces ∨ (view q).isSome = true) := by
  have hunder := h.under (proper_fixedParts hliterals)
  have hrest := properLiterals_drop hliterals (Pattern.fixedParts pieces).length
  cases hmagic : pieces.any Piece.isMagic with
  | true =>
    rw [expand_of_isMagic t p hmagic, List.mem_filter, mem_expandFrom hunder hrest] at hx
    obtain ⟨⟨r, rfl, hr⟩, -⟩ := hx
    refine ⟨_, Path.down_down _ _ _, ?_⟩
    obtain rfl | hsome := hr.eq_nil_or_isSome (hfull.under _)
    · exact .inl (List.append_nil _)
    · exact .inr hsome
  | false =>
    rw [expand_of_not_isMagic t p hmagic hplain] at hx
    split at hx
    · exact ⟨_, List.mem_singleton.1 hx, .inl rfl⟩
    · cases hx

/-- **The files that a pattern stands for** are those that its components lead to, behind the names
with which it starts. -/
lemma isFile_and_mem_expand (h : t.Shows p view) (hdirectory : view.isDirectory = true)
    (hplain : .directoryOnly ∉ pieces) :
    (x ∈ Pattern.expand t ⟨p.anchor, p.parts.map .literal ++ pieces⟩ ∧ t.isFile x = true) ↔
      ∃ q, x = p.down q ∧ Leads view pieces q ∧ (view q).any Node.isFile = true := by
  have hfixed := proper_fixedParts hliterals
  have hrest := properLiterals_drop hliterals (Pattern.fixedParts pieces).length
  have hisFile : ∀ {q}, Proper q → t.isFile (p.down q) = (view q).any Node.isFile := by
    intro q hq
    rw [FileTree.isFile, h.find hq]
  have hne : ∀ {q}, (view q).any Node.isFile = true → q ≠ [] := by
    rintro _ hfile rfl
    rw [View.isDirectory] at hdirectory
    obtain ⟨n, hn, hfile⟩ := (Option.any_eq_true _ _).1 hfile
    rw [hn] at hdirectory
    cases n with
    | directory entries => cases hfile
    | _ => cases hdirectory
  cases hmagic : pieces.any Piece.isMagic with
  | true =>
    rw [expand_of_isMagic t p hmagic, List.mem_filter, mem_expandFrom (h.under hfixed) hrest]
    constructor
    -- the names in front are not looked up, but a file behind them is only found if they are there
    · rintro ⟨⟨⟨r, rfl, hr⟩, -⟩, hfile⟩
      rw [Path.down_down, hisFile (hfixed.append (hr.proper (h.under hfixed) hrest))] at hfile
      have hfound := Option.isSome_of_any hfile
      exact ⟨_, Path.down_down _ _ _, leads_of_fixedParts h hliterals hr hfound, hfile⟩
    · rintro ⟨q, rfl, hq, hfile⟩
      obtain ⟨r, rfl, hr⟩ := hq.exists_fixedParts
      refine ⟨⟨⟨r, (p.down_down _ r).symm, hr⟩, ?_⟩, ?_⟩
      · have hparts : (p.down (Pattern.fixedParts pieces ++ r)).parts ≠ [] :=
          List.append_ne_nil_of_right_ne_nil _ (hne hfile)
        simp [hparts]
      · rwa [hisFile (hq.proper h hliterals)]
  | false =>
    have hnil := drop_fixedParts_of_not_isMagic hmagic hplain
    rw [expand_of_not_isMagic t p hmagic hplain]
    constructor
    · rintro ⟨hx, hfile⟩
      split at hx
      · obtain rfl := List.mem_singleton.1 hx
        rw [hisFile hfixed] at hfile
        have hfound : (view (Pattern.fixedParts pieces ++ [])).isSome = true := by
          rw [List.append_nil]
          exact Option.isSome_of_any hfile
        have hleads := leads_of_fixedParts h hliterals (by rw [hnil]; rfl) hfound
        rw [List.append_nil] at hleads
        exact ⟨_, rfl, hleads, hfile⟩
      · cases hx
    · rintro ⟨q, rfl, hq, hfile⟩
      obtain ⟨r, rfl, hr⟩ := hq.exists_fixedParts
      rw [hnil] at hr
      obtain rfl : r = [] := hr
      rw [List.append_nil] at hfile ⊢
      rw [h.contains hfixed (hne hfile), if_pos (Option.isSome_of_any hfile), hisFile hfixed]
      exact ⟨List.mem_singleton.2 rfl, hfile⟩

end Literals

end WorkflowLint.Glob
