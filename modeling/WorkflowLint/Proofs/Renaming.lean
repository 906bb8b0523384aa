import WorkflowLint.Lint
import WorkflowLint.Proofs.Growth
import WorkflowLint.Proofs.ReadingOrder
import Mathlib.Logic.Equiv.Basic

/-!
# Names changed throughout

Two names are only ever compared with each other, or with the words of the grammar. So if all names
of a script are changed, such that different names stay different and the words stay as they are,
the check takes the same turns, enters the changed names, and reports the same as before about the
changed names.

## Main definitions

* `WorkflowLint.Token.rename`, `WorkflowLint.Finding.rename`, `WorkflowLint.Checker.rename` — names
  changed throughout.
* `WorkflowLint.Renames` — a change of names that keeps the words and tells the names apart.
* `WorkflowLint.nameChange` — the coupling of a check with itself under such a change.

## Main results

* `WorkflowLint.Check.renamed_finish` — the two checks side by side.
* `WorkflowLint.Check.names_changed_throughout` — what the check of the renamed script reports and
  enters.
-/

set_option autoImplicit false

namespace WorkflowLint

/-! ## Names changed -/

/-- The token with another name, if it is an identifier. -/
def Token.rename (f : String → String) (t : Token) : Token :=
  { t with text := if t.kind = .identifier then f t.text else t.text }

/-- The finding with another name, if it is about one. -/
def Finding.rename (f : String → String) : Finding → Finding
  | unknownJulietKey key => unknownJulietKey (f key)
  | duplicateDefinition kind name => duplicateDefinition kind (f name)
  | unknownCadenceKey key => unknownCadenceKey (f key)
  | duplicateAttachment key => duplicateAttachment (f key)
  | unknownAttachmentKey key => unknownAttachmentKey (f key)
  | unresolved kind name site => unresolved kind (f name) site
  | finding => finding

/-- The diagnostic with another name, if it is about one. -/
def Diagnostic.rename (f : String → String) (d : Diagnostic) : Diagnostic :=
  { d with finding := d.finding.rename f }

/-- The definition of another name. -/
def Definition.rename (f : String → String) (d : Definition) : Definition :=
  { d with token := d.token.rename f }

/-- The state in which the names of all tokens and definitions are changed. What has been reported
stays as it was. -/
def Checker.rename (f : String → String) (s : Checker) : Checker :=
  { s with
    past := s.past.map (.rename f)
    ahead := s.ahead.map (.rename f)
    eof := s.eof.rename f
    definitions := s.definitions.map (.rename f) }

variable {f : String → String}

@[simp] lemma Diagnostic.severity_rename (d : Diagnostic) :
    (d.rename f).severity = d.severity := by
  obtain ⟨finding, range⟩ := d
  cases finding <;> rfl

/-- The message about a changed name is the same message, with the name changed in it. -/
lemma Finding.message_rename (finding : Finding) :
    (finding.rename f).message = finding.message ∨ ∃ before name after,
      finding.message = before ++ name ++ after ∧
        (finding.rename f).message = before ++ f name ++ after := by
  -- a message about a name puts it between two texts of its own
  have hname : ∀ before name after : String, finding.message = before ++ name ++ after →
      (finding.rename f).message = before ++ f name ++ after →
      (finding.rename f).message = finding.message ∨ ∃ before name after,
        finding.message = before ++ name ++ after ∧
          (finding.rename f).message = before ++ f name ++ after :=
    fun before name after h h' => .inr ⟨before, name, after, h, h'⟩
  cases finding with
  | unknownJulietKey key => exact hname "Unknown juliet key '" key _ rfl rfl
  | duplicateDefinition kind name => exact hname ("Duplicate " ++ kind.name ++ " '") name _ rfl rfl
  | unknownCadenceKey key => exact hname "Unknown cadence key '" key _ rfl rfl
  | duplicateAttachment key => exact hname "Duplicate create attachment '" key _ rfl rfl
  | unknownAttachmentKey key => exact hname "Unknown create attachment key '" key _ rfl rfl
  | unresolved kind name site =>
    have hsplit (name : String) :
        "Unknown " ++ kind.name ++ " '" ++ name ++ "' " ++ site.phrase ++ "." =
          "Unknown " ++ kind.name ++ " '" ++ name ++ ("' " ++ site.phrase ++ ".") := by
      simp only [String.append_assoc]
    exact hname _ name _ (hsplit name) (hsplit (f name))
  | _ => exact .inl rfl

/-- A token that is no identifier stays as it is. -/
lemma Token.rename_of_kind {t : Token} (h : t.kind ≠ .identifier) : t.rename f = t := by
  rw [rename, if_neg h]

lemma Token.text_rename {t : Token} (h : t.kind = .identifier) : (t.rename f).text = f t.text := by
  rw [rename, if_pos h]

/-- The tables hold the changed names, in the same order. -/
lemma Checker.table_rename (s : Checker) (kind : SymbolKind) :
    (s.rename f).table kind = (s.table kind).map (.rename f) := by
  rw [table, table, rename, ← List.map_reverse, List.filter_map, List.map_map, List.map_map]
  rfl

/-! ## Changes that a check cannot tell -/

/-- `Renames f among`: `f` takes different names `among` the given ones to different names, and it
keeps the words that checks look for, which are among them. -/
structure Renames (f : String → String) (among : String → Prop) : Prop where
  injective {x y : String} : among x → among y → f x = f y → x = y
  word {w : String} : w ∈ words → among w ∧ f w = w

variable {among : String → Prop}

/-- Names are told apart alike. -/
lemma Renames.eq_iff (hf : Renames f among) {x x' y y' : String} (hx : x' = f x ∧ among x)
    (hy : y' = f y ∧ among y) : x = y ↔ x' = y' := by
  rw [hx.1, hy.1]
  exact ⟨congrArg f, hf.injective hx.2 hy.2⟩

/-- Findings that are the same up to a change of names. -/
lemma Similar.eq_rename {finding finding' : Finding}
    (h : Similar (fun x x' => x' = f x ∧ among x) Eq finding finding') :
    finding' = finding.rename f := by
  cases h with
  | unknownJulietKey hx => rw [hx.1]; rfl
  | duplicateDefinition kind hx => rw [hx.1]; rfl
  | unknownCadenceKey hx => rw [hx.1]; rfl
  | duplicateAttachment hx => rw [hx.1]; rfl
  | unknownAttachmentKey hx => rw [hx.1]; rfl
  | unresolved kind site hx => rw [hx.1]; rfl
  | unmatchedTiebreaker hx => rw [hx]; rfl
  | duplicateSourcePath hx => rw [hx]; rfl
  | _ => rfl

/-- Is the token, if it is an identifier, `among` the given names? -/
def Token.Among (among : String → Prop) (t : Token) : Prop := t.kind = .identifier → among t.text

/-- `t'` is `t` with its name changed. -/
def RenamedToken (f : String → String) (among : String → Prop) (t t' : Token) : Prop :=
  t' = t.rename f ∧ t.Among among

namespace RenamedToken

variable {t t' : Token}

lemma kind_eq (h : RenamedToken f among t t') : t.kind = t'.kind := by
  rw [h.1]
  rfl

lemma text_of_identifier (h : RenamedToken f among t t') (hkind : t.kind = .identifier) :
    t'.text = f t.text ∧ among t.text :=
  ⟨by rw [h.1, Token.text_rename hkind], h.2 hkind⟩

lemma text_eq_of_kind (h : RenamedToken f among t t') (hkind : t.kind ≠ .identifier) :
    t.text = t'.text := by
  rw [h.1, Token.rename_of_kind hkind]

lemma text_of_number (h : RenamedToken f among t t') (hkind : t.kind = .number) :
    t.text = t'.text :=
  h.text_eq_of_kind (by rw [hkind]; decide)

lemma text_of_literal (h : RenamedToken f among t t') (hkind : t.kind ∈ TokenKind.literals) :
    t.text = t'.text := by
  refine h.text_eq_of_kind fun hname => ?_
  rw [hname] at hkind
  exact absurd hkind (by decide)

end RenamedToken

/-- The names of a state are among the given ones: those of the tokens ahead, and those entered so
far. -/
structure Checker.NamesAmong (s : Checker) (among : String → Prop) : Prop where
  tokens : ∀ t ∈ s.ahead ++ [s.eof], t.Among among
  definitions : ∀ d ∈ s.definitions, d.token.kind = .identifier ∧ among d.token.text

/-- The state `s'` is `s` with the names changed, and so is what has been reported behind
`earlier`. -/
structure Renamed (f : String → String) (among : String → Prop) (earlier : List Diagnostic)
    (s s' : Checker) : Prop where
  eq : ∃ found, s.reports = found ++ earlier ∧
    s' = { s.rename f with reports := found.map (.rename f) ++ earlier }
  names : s.NamesAmong among

namespace Renamed

variable {earlier : List Diagnostic} {s s' : Checker} {t t' : Token}

lemma refl (h : s.NamesAmong among) : Renamed f among s.reports s (s.rename f) :=
  ⟨⟨[], rfl, rfl⟩, h⟩

lemma ahead (h : Renamed f among earlier s s') :
    List.Forall₂ (RenamedToken f among) s.ahead s'.ahead := by
  obtain ⟨found, -, rfl⟩ := h.eq
  rw [Checker.rename, List.forall₂_map_right_iff, List.forall₂_same]
  exact fun t ht => ⟨rfl, h.names.tokens t (List.mem_append_left _ ht)⟩

lemma eof (h : Renamed f among earlier s s') : RenamedToken f among s.eof s'.eof := by
  obtain ⟨found, -, rfl⟩ := h.eq
  exact ⟨rfl, h.names.tokens s.eof (by simp)⟩

/-- Passing a token. -/
lemma skip (h : Renamed f among earlier s s') : Renamed f among earlier s.skip s'.skip := by
  obtain ⟨⟨found, hreports, rfl⟩, htokens, hdefinitions⟩ := h
  obtain ⟨past, _ | ⟨u, ahead⟩, eof, reports, definitions, seen⟩ := s
  · exact ⟨⟨found, hreports, rfl⟩, htokens, hdefinitions⟩
  · exact ⟨⟨found, hreports, rfl⟩, fun t ht => htokens t (List.mem_cons_of_mem u ht), hdefinitions⟩

/-- Reporting a finding. -/
lemma report (h : Renamed f among earlier s s') (ht : RenamedToken f among t t')
    (finding : Finding) :
    Renamed f among earlier (Check.report finding t s).2
      (Check.report (finding.rename f) t' s').2 := by
  obtain ⟨⟨found, hreports, rfl⟩, hnames⟩ := h
  refine ⟨⟨⟨finding, t.range⟩ :: found, ?_, ?_⟩, hnames.tokens, hnames.definitions⟩
  · rw [Check.report_apply, hreports]
    rfl
  · rw [ht.1]
    rfl

/-- A changed name is defined exactly if the name itself is. -/
lemma isDefined_eq (hf : Renames f among) (h : Renamed f among earlier s s') (kind : SymbolKind)
    (ht : RenamedToken f among t t') (hkind : t.kind = .identifier) :
    s'.isDefined kind t'.text = s.isDefined kind t.text := by
  obtain ⟨⟨found, -, rfl⟩, hnames⟩ := h
  obtain ⟨htext, hamong⟩ := ht.text_of_identifier hkind
  rw [Checker.isDefined, Checker.isDefined, Checker.rename, List.any_map, htext, Bool.eq_iff_iff,
    List.any_eq_true, List.any_eq_true]
  refine exists_congr fun d => and_congr_right fun hd => ?_
  obtain ⟨hidentifier, hd⟩ := hnames.definitions d hd
  have hsame := hf.eq_iff ⟨Token.text_rename hidentifier, hd⟩ ⟨rfl, hamong⟩
  simp only [Function.comp_apply, Definition.rename, Bool.and_eq_true, beq_iff_eq, hsame]

/-- Entering a name. -/
lemma define (hf : Renames f among) (h : Renamed f among earlier s s') (kind : SymbolKind)
    (ht : RenamedToken f among t t') (hkind : t.kind = .identifier) :
    Renamed f among earlier (Check.define kind t s).2 (Check.define kind t' s').2 := by
  obtain ⟨htext, hamong⟩ := ht.text_of_identifier hkind
  rw [Check.define_apply, Check.define_apply, h.isDefined_eq hf kind ht hkind]
  split
  · rw [htext]
    exact h.report ht (.duplicateDefinition kind t.text)
  · obtain ⟨⟨found, hreports, rfl⟩, hnames⟩ := h
    refine ⟨⟨found, hreports, ?_⟩, hnames.tokens, ?_⟩
    · rw [ht.1]
      rfl
    · rintro d (_ | ⟨_, hd⟩)
      · exact ⟨hkind, hamong⟩
      · exact hnames.definitions d hd

/-- Resolving a reference. -/
lemma resolve (hf : Renames f among) (h : Renamed f among earlier s s') (kind : SymbolKind)
    (site : ReferenceSite) (ht : RenamedToken f among t t') (hkind : t.kind = .identifier) :
    Renamed f among earlier (Check.resolve kind site t s).2
      (Check.resolve kind site t' s').2 := by
  rw [Check.resolve_apply, Check.resolve_apply, h.isDefined_eq hf kind ht hkind]
  split
  · exact h
  · rw [(ht.text_of_identifier hkind).1]
    exact h.report ht (.unresolved kind t.text site)

/-- Entering a `juliet` block. -/
lemma juliet (h : Renamed f among earlier s s') (ht : RenamedToken f among t t') :
    Renamed f among earlier
      { (if s.julietSeen then Check.report .duplicateJuliet t s else ((), s)).2 with
        julietSeen := true }
      { (if s'.julietSeen then Check.report .duplicateJuliet t' s' else ((), s')).2 with
        julietSeen := true } := by
  -- the flag itself plays no part in what is renamed
  have hseen : ∀ {r r' : Checker}, Renamed f among earlier r r' →
      Renamed f among earlier { r with julietSeen := true } { r' with julietSeen := true } := by
    rintro r _ ⟨⟨found, hreports, rfl⟩, hnames⟩
    exact ⟨⟨found, hreports, rfl⟩, hnames.tokens, hnames.definitions⟩
  have hsame : s'.julietSeen = s.julietSeen := by
    obtain ⟨⟨found, -, rfl⟩, -⟩ := h
    rfl
  rw [hsame]
  split
  · exact hseen (h.report ht .duplicateJuliet)
  · exact hseen h

end Renamed

/-- The coupling of a check with itself when its names are changed. -/
def nameChange (hf : Renames f among) (earlier : List Diagnostic) : Coupling where
  token := RenamedToken f among
  name x x' := x' = f x ∧ among x
  literal := Eq
  state := Renamed f among earlier
  kind_eq h := h.kind_eq
  name_text h hkind := h.text_of_identifier hkind
  number_text h hkind := h.text_of_number hkind
  literal_text h hkind := h.text_of_literal hkind
  name_eq_iff hx hy := hf.eq_iff hx hy
  name_word hw := ⟨(hf.word hw).2.symm, (hf.word hw).1⟩
  literal_eq_iff := @Eq.congr String
  allBlank_eq := @allBlank_congr
  ahead h := h.ahead
  eof h := h.eof
  skip h := h.skip
  report h ht hfinding := hfinding.eq_rename ▸ h.report ht _
  define kind h ht hkind := h.define hf kind ht hkind
  resolve kind site h ht hkind := h.resolve hf kind site ht hkind
  juliet h ht := h.juliet ht

namespace Check

/-- **The check of a renamed script** is the check of the script, renamed. -/
lemma renamed_finish (hf : Renames f among) {s : Checker} (hs : s.NamesAmong among) :
    Renamed f among s.reports (finish s) (finish (s.rename f)) :=
  finish_coupled (C := nameChange hf s.reports) (.refl hs)

/-- **Names are only told apart.** Let `f` change the names of a script such that different names
stay different and the words of the grammar stay as they are. Of the two checks, run to the end from
the same place,

* each has passed the same number of tokens and has met a `juliet` block if the other has;
* the tables of the second hold the changed names, at the same places and in the same order;
* the reports made on the way are the same in number, in order, in range and in severity, and a
  message differs only in the one name in it, which is changed; and
* if what had been reported before is about no name, then the diagnostics in reading order are those
  of the first check, with the names changed.

**Proof sketch.** The two checks are a coupling: where names are compared, `f` keeps the outcome. -/
theorem names_changed_throughout (hf : Renames f among) {s : Checker} (hs : s.NamesAmong among) :
    (finish (s.rename f)).index = (finish s).index ∧
      (finish (s.rename f)).julietSeen = (finish s).julietSeen ∧
      (∀ kind, (finish (s.rename f)).table kind = ((finish s).table kind).map (.rename f)) ∧
      (∃ found : List Diagnostic, (finish s).reported = s.reported ++ found ∧
        (finish (s.rename f)).reported = s.reported ++ found.map (.rename f) ∧
        ∀ d ∈ found, (d.rename f).range = d.range ∧ (d.rename f).severity = d.severity ∧
          ((d.rename f).message = d.message ∨ ∃ before name after,
            d.message = before ++ name ++ after ∧
              (d.rename f).message = before ++ f name ++ after)) ∧
      ((∀ d ∈ s.reported, d.rename f = d) →
        (finish (s.rename f)).diagnostics = (finish s).diagnostics.map (.rename f)) := by
  obtain ⟨⟨found, hreports, hfinish⟩, -⟩ := renamed_finish hf hs
  have hreported : (finish s).reported = s.reported ++ found.reverse := by
    rw [Checker.reported, hreports, List.reverse_append]
    rfl
  have hreported' : (finish (s.rename f)).reported =
      s.reported ++ found.reverse.map (.rename f) := by
    rw [hfinish, Checker.reported, List.reverse_append, List.map_reverse]
    rfl
  refine ⟨?_, ?_, fun kind => ?_, ⟨found.reverse, hreported, hreported', fun d _ => ?_⟩, ?_⟩
  · rw [hfinish]
    exact List.length_map _
  · rw [hfinish]
    rfl
  · rw [← Checker.table_rename, hfinish]
    rfl
  · exact ⟨rfl, d.severity_rename, d.finding.message_rename⟩
  · intro hearlier
    have hsame : s.reported.map (.rename f) = s.reported :=
      (List.map_congr_left hearlier).trans s.reported.map_id
    have hall : (finish (s.rename f)).reported = (finish s).reported.map (.rename f) := by
      rw [hreported, hreported', List.map_append, hsame]
    rw [Checker.diagnostics, Checker.diagnostics, hall]
    exact (List.map_mergeSort (f := Diagnostic.rename f) fun _ _ _ _ => rfl).symm

/-- Two artifacts that exchange their names. What is missing and what is repeated is exchanged,
too. -/
theorem names_changed_throughout_exchanged :
    let f := Equiv.swap "A" "B"
    let s : Checker := .ofTokenized (tokenize
      "create A from juliet \"p\"; extend B.rubric with \"q\"; create A from juliet \"r\";")
    Renames f (fun _ => True) ∧ s.NamesAmong (fun _ => True) ∧
      (finish s).reported =
        [⟨.unresolved .artifact "B" .extendStatement, ⟨⟨0, 33⟩, ⟨0, 34⟩⟩⟩,
          ⟨.duplicateDefinition .artifact "A", ⟨⟨0, 59⟩, ⟨0, 60⟩⟩⟩] ∧
      (finish (s.rename f)).reported =
        [⟨.unresolved .artifact "A" .extendStatement, ⟨⟨0, 33⟩, ⟨0, 34⟩⟩⟩,
          ⟨.duplicateDefinition .artifact "B", ⟨⟨0, 59⟩, ⟨0, 60⟩⟩⟩] := by
  intro f s
  have hwords : ∀ w ∈ words, f w = w := by decide
  have hf : Renames f (fun _ => True) :=
    ⟨fun _ _ h => f.injective h, fun hw => ⟨trivial, hwords _ hw⟩⟩
  have hdefinitions : s.definitions = [] := rfl
  have hs : s.NamesAmong (fun _ => True) :=
    ⟨fun _ _ _ => trivial, fun d hd => absurd (hdefinitions ▸ hd) List.not_mem_nil⟩
  have hreported : (finish s).reported =
      [⟨.unresolved .artifact "B" .extendStatement, ⟨⟨0, 33⟩, ⟨0, 34⟩⟩⟩,
        ⟨.duplicateDefinition .artifact "A", ⟨⟨0, 59⟩, ⟨0, 60⟩⟩⟩] := by decide +kernel
  have hnothing : s.reported = [] := by decide +kernel
  obtain ⟨-, -, -, ⟨found, hfound, hrenamed, -⟩, -⟩ := names_changed_throughout hf hs
  obtain rfl : found = (finish s).reported := by rw [hfound, hnothing, List.nil_append]
  refine ⟨hf, hs, hreported, ?_⟩
  rw [hrenamed, hnothing, hreported]
  decide

end Check

end WorkflowLint
