import WorkflowLint.Lint
import WorkflowLint.Proofs.Coupling

/-!
# Literals spelled otherwise

A check looks at two things about the string literals of a script: which of them are equal, and
which of them are blank. So if the literals are spelled otherwise, and both stay as they were, the
check takes the same turns and makes the same reports. Only a literal that a report names is then
named as it is spelled.

## Main definitions

* `WorkflowLint.Token.respell`, `WorkflowLint.Finding.respell`, `WorkflowLint.Diagnostic.respell` —
  literals in another spelling.
* `WorkflowLint.Respells` — a change of spelling that a check cannot tell.
* `WorkflowLint.respelling` — the coupling of a check with itself under such a change.

## Main results

* `WorkflowLint.Check.finish_respell` — a check of other spellings.
* `WorkflowLint.Checker.diagnostics_respell` — the reports are in the same order.
-/

set_option autoImplicit false

namespace WorkflowLint

/-! ## Other spellings -/

/-- The token with another spelling, if it is a literal. -/
def Token.respell (f : String → String) (t : Token) : Token :=
  { t with text := if t.kind ∈ TokenKind.literals then f t.text else t.text }

/-- The finding with another spelling of the literal that it names, if it names one. -/
def Finding.respell (f : String → String) : Finding → Finding
  | unmatchedTiebreaker label => unmatchedTiebreaker (f label)
  | duplicateSourcePath path => duplicateSourcePath (f path)
  | finding => finding

/-- The diagnostic with another spelling of the literal that it names, if it names one. -/
def Diagnostic.respell (f : String → String) (d : Diagnostic) : Diagnostic :=
  { d with finding := d.finding.respell f }

/-- The state in which all literals have another spelling. -/
def Checker.respell (f : String → String) (s : Checker) : Checker :=
  { s with
    past := s.past.map (.respell f)
    ahead := s.ahead.map (.respell f)
    eof := s.eof.respell f
    reports := s.reports.map (.respell f) }

variable {f : String → String}

@[simp] lemma Diagnostic.range_respell (d : Diagnostic) : (d.respell f).range = d.range := rfl

@[simp] lemma Diagnostic.severity_respell (d : Diagnostic) :
    (d.respell f).severity = d.severity := by
  obtain ⟨finding, range⟩ := d
  cases finding <;> rfl

/-- A token that is no literal keeps its spelling. -/
lemma Token.respell_of_kind {t : Token} (h : t.kind ∉ TokenKind.literals) : t.respell f = t := by
  rw [respell, if_neg h]

lemma Token.text_respell {t : Token} (h : t.kind ∈ TokenKind.literals) :
    (t.respell f).text = f t.text := by
  rw [respell, if_pos h]

/-- Definitions are not concerned. -/
lemma Checker.isDefined_respell (s : Checker) (kind : SymbolKind) (name : String) :
    (s.respell f).isDefined kind name = s.isDefined kind name := rfl

lemma Checker.skip_respell (s : Checker) : (s.respell f).skip = s.skip.respell f := by
  obtain ⟨past, _ | ⟨t, ahead⟩, eof, reports, definitions, seen⟩ := s
  · rfl
  · rfl

/-! ## Checks -/

/-- `Respells f among`: of the literals `among`, `f` takes equal spellings only to equal ones, and
blank ones exactly to blank ones. -/
structure Respells (f : String → String) (among : String → Prop) : Prop where
  injective {x y : String} : among x → among y → f x = f y → x = y
  allBlank_eq {x : String} : among x → Text.allBlank (f x) = Text.allBlank x

variable {among : String → Prop}

/-- Literals are told apart alike. -/
lemma Respells.eq_iff (hf : Respells f among) {x x' y y' : String} (hx : x' = f x ∧ among x)
    (hy : y' = f y ∧ among y) : x = y ↔ x' = y' := by
  rw [hx.1, hy.1]
  exact ⟨congrArg f, hf.injective hx.2 hy.2⟩

/-- Findings that are the same up to a change of spelling. -/
lemma Similar.eq_respell {finding finding' : Finding}
    (h : Similar Eq (fun x x' => x' = f x ∧ among x) finding finding') :
    finding' = finding.respell f := by
  cases h with
  | unmatchedTiebreaker hx => rw [hx.1]; rfl
  | duplicateSourcePath hx => rw [hx.1]; rfl
  | unknownJulietKey hx => rw [hx]; rfl
  | duplicateDefinition kind hx => rw [hx]; rfl
  | unknownCadenceKey hx => rw [hx]; rfl
  | duplicateAttachment hx => rw [hx]; rfl
  | unknownAttachmentKey hx => rw [hx]; rfl
  | unresolved kind site hx => rw [hx]; rfl
  | _ => rfl

/-- `t'` is `t` respelled. If it is a literal then it is `among` the given ones. -/
def RespelledToken (f : String → String) (among : String → Prop) (t t' : Token) : Prop :=
  t' = t.respell f ∧ (t.kind ∈ TokenKind.literals → among t.text)

namespace RespelledToken

variable {t t' : Token}

lemma kind_eq (h : RespelledToken f among t t') : t.kind = t'.kind := by
  rw [h.1]
  rfl

lemma eq_of_kind (h : RespelledToken f among t t') (hkind : t.kind ∉ TokenKind.literals) :
    t = t' := by
  rw [h.1, Token.respell_of_kind hkind]

lemma eq_of_identifier (h : RespelledToken f among t t') (hkind : t.kind = .identifier) : t = t' :=
  h.eq_of_kind (by rw [hkind]; decide)

lemma eq_of_number (h : RespelledToken f among t t') (hkind : t.kind = .number) : t = t' :=
  h.eq_of_kind (by rw [hkind]; decide)

lemma text_eq (h : RespelledToken f among t t') (hkind : t.kind ∈ TokenKind.literals) :
    t'.text = f t.text ∧ among t.text :=
  ⟨by rw [h.1, Token.text_respell hkind], h.2 hkind⟩

end RespelledToken

/-- The state `s'` is `s` respelled. The literals ahead are `among` the given ones. -/
def Respelled (f : String → String) (among : String → Prop) (s s' : Checker) : Prop :=
  s' = s.respell f ∧ ∀ t ∈ s.ahead ++ [s.eof], t.kind ∈ TokenKind.literals → among t.text

namespace Respelled

variable {s s' : Checker} {t t' : Token}

lemma ahead (h : Respelled f among s s') :
    List.Forall₂ (RespelledToken f among) s.ahead s'.ahead := by
  rw [h.1, Checker.respell, List.forall₂_map_right_iff, List.forall₂_same]
  exact fun t ht => ⟨rfl, h.2 t (List.mem_append_left _ ht)⟩

lemma eof (h : Respelled f among s s') : RespelledToken f among s.eof s'.eof := by
  rw [h.1]
  exact ⟨rfl, h.2 s.eof (by simp)⟩

/-- Passing a token. -/
lemma skip (h : Respelled f among s s') : Respelled f among s.skip s'.skip := by
  refine ⟨by rw [h.1, Checker.skip_respell], fun t ht => h.2 t ?_⟩
  obtain ⟨past, _ | ⟨u, ahead⟩, eof, reports, definitions, seen⟩ := s
  · exact ht
  · exact List.mem_cons_of_mem u ht

/-- Reporting a finding. -/
lemma report (h : Respelled f among s s') (ht : RespelledToken f among t t') (finding : Finding) :
    Respelled f among (Check.report finding t s).2
      (Check.report (finding.respell f) t' s').2 := by
  rw [h.1, ht.1]
  exact ⟨rfl, h.2⟩

/-- Entering a name. -/
lemma define (h : Respelled f among s s') (kind : SymbolKind) (t : Token) :
    Respelled f among (Check.define kind t s).2 (Check.define kind t s').2 := by
  rw [Check.define_apply, Check.define_apply, h.1, Checker.isDefined_respell]
  split
  · exact ⟨rfl, h.2⟩
  · exact ⟨rfl, h.2⟩

/-- Resolving a reference. -/
lemma resolve (h : Respelled f among s s') (kind : SymbolKind) (site : ReferenceSite) (t : Token) :
    Respelled f among (Check.resolve kind site t s).2 (Check.resolve kind site t s').2 := by
  rw [Check.resolve_apply, Check.resolve_apply, h.1, Checker.isDefined_respell]
  split
  · exact ⟨rfl, h.2⟩
  · exact ⟨rfl, h.2⟩

/-- Entering a `juliet` block. -/
lemma juliet (h : Respelled f among s s') (ht : RespelledToken f among t t') :
    Respelled f among
      { (if s.julietSeen then Check.report .duplicateJuliet t s else ((), s)).2 with
        julietSeen := true }
      { (if s'.julietSeen then Check.report .duplicateJuliet t' s' else ((), s')).2 with
        julietSeen := true } := by
  have hseen : s'.julietSeen = s.julietSeen := by
    rw [h.1]
    rfl
  rw [hseen, h.1, ht.1]
  split
  · exact ⟨rfl, h.2⟩
  · exact ⟨rfl, h.2⟩

end Respelled

/-- The coupling of a check with itself when its literals are respelled. -/
def respelling (hf : Respells f among) : Coupling where
  token := RespelledToken f among
  name := Eq
  literal x x' := x' = f x ∧ among x
  state := Respelled f among
  kind_eq h := h.kind_eq
  name_text h hkind := congrArg Token.text (h.eq_of_identifier hkind)
  number_text h hkind := congrArg Token.text (h.eq_of_number hkind)
  literal_text h hkind := h.text_eq hkind
  name_eq_iff := @Eq.congr String
  name_word _ := rfl
  literal_eq_iff hx hy := hf.eq_iff hx hy
  allBlank_eq hx := hx.1 ▸ (hf.allBlank_eq hx.2).symm
  ahead h := h.ahead
  eof h := h.eof
  skip h := h.skip
  report h ht hfinding := hfinding.eq_respell ▸ h.report ht _
  define kind h ht hkind := ht.eq_of_identifier hkind ▸ h.define kind _
  resolve kind site h ht hkind := ht.eq_of_identifier hkind ▸ h.resolve kind site _
  juliet h ht := h.juliet ht

/-- **A check of other spellings** makes the same reports, apart from the spellings. -/
lemma Check.finish_respell (hf : Respells f among) {s : Checker}
    (hs : ∀ t ∈ s.ahead ++ [s.eof], t.kind ∈ TokenKind.literals → among t.text) :
    finish (s.respell f) = (finish s).respell f :=
  (finish_coupled (C := respelling hf) ⟨rfl, hs⟩).1

/-- The spellings have no part in the order of the reports. -/
lemma Checker.diagnostics_respell (s : Checker) :
    (s.respell f).diagnostics = s.diagnostics.map (.respell f) := by
  have hreported : (s.respell f).reported = s.reported.map (.respell f) := List.map_reverse.symm
  have hsort : (Diagnostic.sort s.reported).map (.respell f) =
      Diagnostic.sort (s.reported.map (.respell f)) :=
    List.map_mergeSort (f := Diagnostic.respell f) fun d _ e _ => by
      rw [Diagnostic.startsBy, Diagnostic.startsBy, Diagnostic.range_respell,
        Diagnostic.range_respell]
  rw [diagnostics, diagnostics, hreported, hsort]

end WorkflowLint
