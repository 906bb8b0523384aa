import Mathlib.Data.List.Forall2
import WorkflowLint.Proofs.Execution

/-!
# Two checks side by side

A check looks at little of what it is given: at the kinds of tokens, at whether a name is one of a
few words, at whether two texts are equal. So two checks over similar tokens take the same turns and
make similar reports. A `Coupling` says what "similar" means and which states of the two checks go
together; that it is kept by every building block is then enough for whole scripts.

Many facts are couplings: that a shift of all positions shifts the reports, that reports made
earlier play no part, that a renaming of names renames the reports. A check coupled with itself
gives the invariants that a single check keeps.

## Design

`Coupling.state` may say anything about the two states, as long as the building blocks keep it. What
is reported, defined or resolved is left to the coupling, because two checks may well differ there.
The token passed last is similar only once a token has been passed; `Coupling.inside` adds it.

## Main definitions

* `WorkflowLint.words` — the words that checks look for.
* `WorkflowLint.Similar` — similar findings.
* `WorkflowLint.Coupling` — what is kept by the building blocks of checks.
* `WorkflowLint.Check.Coupled` — two computations that keep a coupling and give similar answers.

## Main results

* `WorkflowLint.Check.Coupled.bind` — sequencing.
* `WorkflowLint.Check.coupled_expect`, `WorkflowLint.Check.coupled_acceptWord`,
  `WorkflowLint.Check.coupled_recover` — building blocks.
* `WorkflowLint.Check.coupled_untilClosed`, `WorkflowLint.Check.coupled_listed` — loops.
-/

set_option autoImplicit false

namespace WorkflowLint

/-! ## Couplings -/

/-- The words that checks look for. -/
def words : List String :=
  ["juliet", "policy", "rubric", "cadence", "create", "extend", "halt", "criterion", "tiebreakers",
    "points", "means", "compare", "keep", "using", "best", "from", "with",
    "julietArtifactSourceFiles", "engine", "variants", "sprints", "preflight", "failureTriage"]

/-- Findings that are the same up to the names and the literals they mention. -/
inductive Similar (name literal : String → String → Prop) : Finding → Finding → Prop
  | expected (what : String) : Similar name literal (.expected what) (.expected what)
  | duplicateJuliet : Similar name literal .duplicateJuliet .duplicateJuliet
  | unknownJulietKey {x x' : String} :
      name x x' → Similar name literal (.unknownJulietKey x) (.unknownJulietKey x')
  | duplicateDefinition (kind : SymbolKind) {x x' : String} :
      name x x' → Similar name literal (.duplicateDefinition kind x) (.duplicateDefinition kind x')
  | nonPositivePoints : Similar name literal .nonPositivePoints .nonPositivePoints
  | emptyMeaning : Similar name literal .emptyMeaning .emptyMeaning
  | unmatchedTiebreaker {x x' : String} :
      literal x x' → Similar name literal (.unmatchedTiebreaker x) (.unmatchedTiebreaker x')
  | missingCadenceKey (key : String) :
      Similar name literal (.missingCadenceKey key) (.missingCadenceKey key)
  | nonPositiveKeep : Similar name literal .nonPositiveKeep .nonPositiveKeep
  | nonPositiveCount (key : String) :
      Similar name literal (.nonPositiveCount key) (.nonPositiveCount key)
  | unknownCadenceKey {x x' : String} :
      name x x' → Similar name literal (.unknownCadenceKey x) (.unknownCadenceKey x')
  | duplicateSourcePath {x x' : String} :
      literal x x' → Similar name literal (.duplicateSourcePath x) (.duplicateSourcePath x')
  | duplicateAttachment {x x' : String} :
      name x x' → Similar name literal (.duplicateAttachment x) (.duplicateAttachment x')
  | unknownAttachmentKey {x x' : String} :
      name x x' → Similar name literal (.unknownAttachmentKey x) (.unknownAttachmentKey x')
  | unresolved (kind : SymbolKind) (site : ReferenceSite) {x x' : String} :
      name x x' → Similar name literal (.unresolved kind x site) (.unresolved kind x' site)
  | unsupportedExtendTarget :
      Similar name literal .unsupportedExtendTarget .unsupportedExtendTarget

/-- Names and literals that are only ever similar to themselves make findings so. -/
lemma Similar.eq {f f' : Finding} (h : Similar Eq Eq f f') : f = f' := by
  cases h with
  | unknownJulietKey hx => rw [hx]
  | duplicateDefinition kind hx => rw [hx]
  | unmatchedTiebreaker hx => rw [hx]
  | unknownCadenceKey hx => rw [hx]
  | duplicateSourcePath hx => rw [hx]
  | duplicateAttachment hx => rw [hx]
  | unknownAttachmentKey hx => rw [hx]
  | unresolved kind site hx => rw [hx]
  | _ => rfl

/-- What goes together in two checks that take the same turns. -/
structure Coupling where
  /-- Which tokens are similar. -/
  token : Token → Token → Prop
  /-- Which names are similar. -/
  name : String → String → Prop
  /-- Which literals are similar. -/
  literal : String → String → Prop
  /-- Which states go together. -/
  state : Checker → Checker → Prop
  kind_eq {t t' : Token} : token t t' → t.kind = t'.kind
  name_text {t t' : Token} : token t t' → t.kind = .identifier → name t.text t'.text
  number_text {t t' : Token} : token t t' → t.kind = .number → t.text = t'.text
  literal_text {t t' : Token} : token t t' → t.kind ∈ TokenKind.literals → literal t.text t'.text
  /-- Similar names tell the same names apart. -/
  name_eq_iff {x x' y y' : String} : name x x' → name y y' → (x = y ↔ x' = y')
  /-- The words that checks look for are similar to themselves. -/
  name_word {w : String} : w ∈ words → name w w
  /-- Similar literals tell the same literals apart. -/
  literal_eq_iff {x x' y y' : String} : literal x x' → literal y y' → (x = y ↔ x' = y')
  allBlank_eq {x x' : String} : literal x x' → Text.allBlank x = Text.allBlank x'
  ahead {s s' : Checker} : state s s' → List.Forall₂ token s.ahead s'.ahead
  eof {s s' : Checker} : state s s' → token s.eof s'.eof
  skip {s s' : Checker} : state s s' → state s.skip s'.skip
  report {s s' : Checker} {t t' : Token} {f f' : Finding} :
    state s s' → token t t' → Similar name literal f f' →
      state (Check.report f t s).2 (Check.report f' t' s').2
  define {s s' : Checker} {t t' : Token} (kind : SymbolKind) :
    state s s' → token t t' → t.kind = .identifier →
      state (Check.define kind t s).2 (Check.define kind t' s').2
  resolve {s s' : Checker} {t t' : Token} (kind : SymbolKind) (site : ReferenceSite) :
    state s s' → token t t' → t.kind = .identifier →
      state (Check.resolve kind site t s).2 (Check.resolve kind site t' s').2
  /-- A `juliet` block is reported on its keyword if there was one before. -/
  juliet {s s' : Checker} {t t' : Token} :
    state s s' → token t t' →
      state { (if s.julietSeen then Check.report .duplicateJuliet t s else ((), s)).2 with
          julietSeen := true }
        { (if s'.julietSeen then Check.report .duplicateJuliet t' s' else ((), s')).2 with
          julietSeen := true }

namespace Coupling

variable (C : Coupling) {s s' : Checker} {t t' : Token}

/-- Tokens that are similar, and are similar as tokens of the given kinds. -/
def leaf (kinds : List TokenKind) (t t' : Token) : Prop := C.token t t' ∧ t.kind ∈ kinds

variable {C}

/-- A word is found among similar names alike. -/
lemma eq_word_iff {x x' w : String} (h : C.name x x') (hw : w ∈ words) : x = w ↔ x' = w :=
  C.name_eq_iff h (C.name_word hw)

/-- A name that is one of the words is similar to itself only. -/
lemma eq_of_mem_words {x x' : String} (h : C.name x x') (hx : x ∈ words) : x' = x :=
  (eq_word_iff h hx).1 rfl

/-- Similar tokens are the same words. -/
lemma isWord_eq (h : C.token t t') {w : String} (hw : w ∈ words) : t.isWord w = t'.isWord w := by
  rw [Bool.eq_iff_iff]
  simp only [Token.isWord, Bool.and_eq_true, beq_iff_eq, ← C.kind_eq h]
  constructor
  · rintro ⟨hkind, htext⟩
    exact ⟨hkind, (eq_word_iff (C.name_text h hkind) hw).1 htext⟩
  · rintro ⟨hkind, htext⟩
    exact ⟨hkind, (eq_word_iff (C.name_text h hkind) hw).2 htext⟩

/-- The tokens further ahead are similar. -/
lemma peek (h : C.state s s') (n : Nat) : C.token (s.peek n) (s'.peek n) := by
  have heof := C.eof h
  have hahead := C.ahead h
  rw [Checker.peek, Checker.peek]
  generalize s.ahead = ts at hahead
  generalize s'.ahead = ts' at hahead
  induction hahead generalizing n with
  | nil => exact heof
  | cons ht _ ih =>
    cases n with
    | zero => exact ht
    | succ n => exact ih n

/-- The tokens at hand are similar. -/
lemma current (h : C.state s s') : C.token s.current s'.current := by
  have hpeek : ∀ s : Checker, s.current = s.peek 0 := by
    intro s
    rw [Checker.current, Checker.peek]
    cases s.ahead <;> rfl
  rw [hpeek, hpeek]
  exact peek h 0

/-- There are equally many tokens ahead. -/
lemma length_ahead (h : C.state s s') : s.ahead.length = s'.ahead.length :=
  (C.ahead h).length_eq

lemma atEnd_eq (h : C.state s s') : s.atEnd = s'.atEnd := by
  have hlength := length_ahead h
  rw [Checker.atEnd, Checker.atEnd, Bool.eq_iff_iff, List.isEmpty_iff_length_eq_zero,
    List.isEmpty_iff_length_eq_zero, hlength]

lemma isAt_eq (h : C.state s s') (kinds : List TokenKind) : s.isAt kinds = s'.isAt kinds := by
  rw [Checker.isAt, Checker.isAt, C.kind_eq (current h)]

lemma isAtWord_eq (h : C.state s s') {w : String} (hw : w ∈ words) :
    s.isAtWord w = s'.isAtWord w :=
  isWord_eq (current h) hw

/-- Passing tokens as long as similar tests accept them. -/
lemma skipWhile {p : Token → Bool} (hp : ∀ {t t'}, C.token t t' → p t = p t')
    (h : C.state s s') : C.state (s.skipWhile p) (s'.skipWhile p) := by
  induction hn : s.ahead.length using Nat.strongRecOn generalizing s s' with
  | _ n ih =>
    subst hn
    -- a round of `skipWhile` is a `skip`
    have hround : ∀ s : Checker, s.skipWhile p =
        if s.atEnd || !p s.current then s else s.skip.skipWhile p := by
      rintro ⟨past, _ | ⟨t, ts⟩, eof, reports, definitions, seen⟩
      · rfl
      · by_cases ht : p t = true
        · simp [Checker.skipWhile, Checker.current, Checker.skip, Checker.atEnd, ht]
        · simp [Checker.skipWhile, Checker.current, Checker.atEnd, ht]
    have hcurrent := hp (current h)
    rw [hround s, hround s', ← atEnd_eq h, ← hcurrent]
    split
    · exact h
    · rename_i hgo
      have hlt : s.skip.ahead.length < s.ahead.length := by
        simp only [Bool.or_eq_true, not_or, Checker.atEnd] at hgo
        cases hs : s.ahead with
        | nil => simp [hs] at hgo
        | cons t ts => simp [Checker.skip, hs]
      exact ih _ hlt (C.skip h) rfl

/-- A token that is passed becomes the token passed last. -/
lemma previous_skip (h : C.state s s')
    (hprevious : s.atEnd = true → C.token s.previous s'.previous) :
    C.token s.skip.previous s'.skip.previous := by
  have hskip : ∀ s : Checker, s.skip.previous = if s.atEnd then s.previous else s.current := by
    rintro ⟨past, _ | ⟨t, ts⟩, eof, reports, definitions, seen⟩
    · rfl
    · rfl
  rw [hskip s, hskip s', ← atEnd_eq h]
  split
  · exact hprevious ‹_›
  · exact current h

variable (C) in
/-- The same coupling where the tokens passed last are similar, too. -/
def inside : Coupling where
  token := C.token
  name := C.name
  literal := C.literal
  state s s' := C.state s s' ∧ C.token s.previous s'.previous
  kind_eq := C.kind_eq
  name_text := C.name_text
  number_text := C.number_text
  literal_text := C.literal_text
  name_eq_iff := C.name_eq_iff
  name_word := C.name_word
  literal_eq_iff := C.literal_eq_iff
  allBlank_eq := C.allBlank_eq
  ahead h := C.ahead h.1
  eof h := C.eof h.1
  skip h := ⟨C.skip h.1, previous_skip h.1 fun _ => h.2⟩
  report h ht hf := ⟨C.report h.1 ht hf, h.2⟩
  define kind h ht hkind := by
    refine ⟨C.define kind h.1 ht hkind, ?_⟩
    have hprevious : ∀ (t : Token) (s : Checker),
        (Check.define kind t s).2.previous = s.previous := by
      intro t s
      rw [Check.define_apply]
      split <;> rfl
    rw [hprevious, hprevious]
    exact h.2
  resolve kind site h ht hkind := by
    refine ⟨C.resolve kind site h.1 ht hkind, ?_⟩
    have hprevious : ∀ (t : Token) (s : Checker),
        (Check.resolve kind site t s).2.previous = s.previous := by
      intro t s
      rw [Check.resolve_apply]
      split <;> rfl
    rw [hprevious, hprevious]
    exact h.2
  juliet {s s' t t'} h ht := by
    refine ⟨C.juliet h.1 ht, ?_⟩
    have hprevious : ∀ (t : Token) (s : Checker),
        Checker.previous { (if s.julietSeen then Check.report .duplicateJuliet t s
          else ((), s)).2 with julietSeen := true } = s.previous := by
      intro t s
      split <;> rfl
    rw [hprevious, hprevious]
    exact h.2

end Coupling

namespace Check

variable {α β : Type} {C : Coupling}

/-- From the states `s` and `s'`, two computations give answers that are related by `R`, and leave
states that go together. -/
def CoupledAt (C : Coupling) (m m' : Check α) (R : α → α → Prop) (s s' : Checker) : Prop :=
  R (m s).1 (m' s').1 ∧ C.state (m s).2 (m' s').2

/-- The same from all states that go together. -/
def Coupled (C : Coupling) (m m' : Check α) (R : α → α → Prop) : Prop :=
  ∀ s s', C.state s s' → CoupledAt C m m' R s s'

/-! ## Composition -/

lemma CoupledAt.mono {m m' : Check α} {R Q : α → α → Prop} {s s' : Checker}
    (h : CoupledAt C m m' R s s') (hRQ : ∀ a a', R a a' → Q a a') : CoupledAt C m m' Q s s' :=
  ⟨hRQ _ _ h.1, h.2⟩

lemma coupled_pure {a a' : α} {R : α → α → Prop} (h : R a a') :
    Coupled C (pure a) (pure a') R :=
  fun _ _ hs => ⟨h, hs⟩

/-- **Sequencing.** -/
lemma CoupledAt.bind {m m' : Check α} {f f' : α → Check β} {R : α → α → Prop}
    {Q : β → β → Prop} {s s' : Checker} (hm : CoupledAt C m m' R s s')
    (hf : ∀ a a', R a a' → Coupled C (f a) (f' a') Q) : CoupledAt C (m >>= f) (m' >>= f') Q s s' :=
  hf _ _ hm.1 _ _ hm.2

lemma Coupled.bind {m m' : Check α} {f f' : α → Check β} {R : α → α → Prop} {Q : β → β → Prop}
    (hm : Coupled C m m' R) (hf : ∀ a a', R a a' → Coupled C (f a) (f' a') Q) :
    Coupled C (m >>= f) (m' >>= f') Q :=
  fun s s' hs => (hm s s' hs).bind hf

lemma Coupled.discard {m m' : Check α} {R : α → α → Prop} (hm : Coupled C m m' R) :
    Coupled C (discard m) (discard m') fun _ _ => True :=
  fun s s' hs => ⟨trivial, (hm s s' hs).2⟩

/-- Checks that look at their states first go on with these. -/
lemma coupledAt_get_bind {f f' : Checker → Check β} {Q : β → β → Prop} {s s' : Checker}
    (h : CoupledAt C (f s) (f' s') Q s s') : CoupledAt C (get >>= f) (get >>= f') Q s s' := h

lemma coupled_get_bind {f f' : Checker → Check β} {Q : β → β → Prop}
    (h : ∀ s s', C.state s s' → CoupledAt C (f s) (f' s') Q s s') :
    Coupled C (get >>= f) (get >>= f') Q :=
  fun s s' hs => coupledAt_get_bind (h s s' hs)

/-- A choice under conditions that hold alike. -/
lemma coupledAt_ite {c c' : Prop} [Decidable c] [Decidable c'] {m m' n n' : Check α}
    {R : α → α → Prop} {s s' : Checker} (hc : c ↔ c') (hm : c → c' → CoupledAt C m m' R s s')
    (hn : ¬ c → ¬ c' → CoupledAt C n n' R s s') :
    CoupledAt C (if c then m else n) (if c' then m' else n') R s s' := by
  by_cases h : c
  · rw [if_pos h, if_pos (hc.1 h)]
    exact hm h (hc.1 h)
  · rw [if_neg h, if_neg (mt hc.2 h)]
    exact hn h (mt hc.2 h)

lemma coupled_ite {c c' : Prop} [Decidable c] [Decidable c'] {m m' n n' : Check α}
    {R : α → α → Prop} (hc : c ↔ c') (hm : c → c' → Coupled C m m' R)
    (hn : ¬ c → ¬ c' → Coupled C n n' R) :
    Coupled C (if c then m else n) (if c' then m' else n') R :=
  fun s s' hs => coupledAt_ite hc (fun h h' => hm h h' s s' hs) fun h h' => hn h h' s s' hs

/-- A remark that is made under conditions that hold alike, in front of `k`. -/
lemma coupled_when {c c' : Prop} [Decidable c] [Decidable c'] {m m' : Check Unit}
    {k k' : Unit → Check β} {Q : β → β → Prop} (hc : c ↔ c')
    (hm : Coupled C m m' fun _ _ => True) (hk : Coupled C (k ()) (k' ()) Q) :
    Coupled C (if c then m >>= k else k ()) (if c' then m' >>= k' else k' ()) Q :=
  coupled_ite hc (fun _ _ => hm.bind fun _ _ _ => hk) fun _ _ => hk

/-- A remark that is made unless conditions hold alike, in front of `k`. -/
lemma coupled_unless {c c' : Prop} [Decidable c] [Decidable c'] {m m' : Check Unit}
    {k k' : Unit → Check β} {Q : β → β → Prop} (hc : c ↔ c')
    (hm : Coupled C m m' fun _ _ => True) (hk : Coupled C (k ()) (k' ()) Q) :
    Coupled C (if c then k () else m >>= k) (if c' then k' () else m' >>= k') Q :=
  coupled_ite hc (fun _ _ => hk) fun _ _ => hm.bind fun _ _ _ => hk

/-! ## Building blocks -/

lemma coupled_advance : Coupled C advance advance C.token :=
  fun _ _ hs => ⟨Coupling.current hs, C.skip hs⟩

lemma coupled_report {f f' : Finding} {t t' : Token} (ht : C.token t t')
    (hf : Similar C.name C.literal f f') :
    Coupled C (report f t) (report f' t') fun _ _ => True :=
  fun _ _ hs => ⟨trivial, C.report hs ht hf⟩

lemma coupled_reportCurrent {f f' : Finding} (hf : Similar C.name C.literal f f') :
    Coupled C (reportCurrent f) (reportCurrent f') fun _ _ => True :=
  fun _ _ hs => ⟨trivial, C.report hs (Coupling.current hs) hf⟩

/-- Expecting a token of some kinds. -/
lemma coupled_expect (kinds : List TokenKind) (what : String) :
    Coupled C (expect kinds (.expected what)) (expect kinds (.expected what))
      (Option.Rel (C.leaf kinds)) := by
  intro s s' hs
  have hcurrent := Coupling.current hs
  rw [CoupledAt, expect_apply, expect_apply, ← Coupling.isAt_eq hs]
  split
  · rename_i hat
    have hmem : s.current.kind ∈ kinds := by simpa [Checker.isAt] using hat
    exact ⟨.some ⟨hcurrent, hmem⟩, C.skip hs⟩
  · exact ⟨.none, C.report hs hcurrent (.expected what)⟩

/-- Expecting a word. -/
lemma coupled_expectKeyword {word : String} (hw : word ∈ words) (what : String) :
    Coupled C (expectKeyword word what) (expectKeyword word what) fun _ _ => True := by
  intro s s' hs
  refine ⟨trivial, ?_⟩
  rw [expectKeyword, discard_apply, discard_apply, expectWord_apply, expectWord_apply,
    ← Coupling.isAtWord_eq hs hw]
  split
  · exact C.skip hs
  · exact C.report hs (Coupling.current hs) (.expected what)

/-- Accepting a word. -/
lemma coupled_acceptWord {word : String} (hw : word ∈ words) :
    Coupled C (acceptWord word) (acceptWord word) Eq := by
  intro s s' hs
  rw [CoupledAt, acceptWord_apply, acceptWord_apply, ← Coupling.isAtWord_eq hs hw]
  split
  · exact ⟨rfl, C.skip hs⟩
  · exact ⟨rfl, hs⟩

/-- Accepting a kind of token. -/
lemma coupled_accept (kind : TokenKind) : Coupled C (accept kind) (accept kind) Eq := by
  intro s s' hs
  rw [CoupledAt, accept_apply, accept_apply, ← Coupling.isAt_eq hs]
  split
  · exact ⟨rfl, C.skip hs⟩
  · exact ⟨rfl, hs⟩

lemma coupled_expectMark (m : Mark) (what : String) :
    Coupled C (expectMark m what) (expectMark m what) fun _ _ => True :=
  (coupled_expect [.mark m] what).discard

/-- Leaving a stretch behind, up to tokens that stop alike. -/
lemma coupled_recover {stop : Token → Bool} (hstop : ∀ {t t'}, C.token t t' → stop t = stop t') :
    Coupled C (recover stop) (recover stop) fun _ _ => True := by
  refine Coupled.bind (R := fun _ _ => True) ?_ fun _ _ _ =>
    (coupled_accept (.mark .semicolon)).discard
  intro s s' hs
  exact ⟨trivial, Coupling.skipWhile (fun ht => by rw [hstop ht]) hs⟩

lemma coupled_recoverInBlock :
    Coupled C recoverInBlock recoverInBlock fun _ _ => True := by
  refine coupled_recover fun ht => ?_
  rw [endsItem, endsItem, C.kind_eq ht]

/-- Similar tokens introduce the same kind of statement. -/
lemma ofToken?_eq {t t' : Token} (ht : C.token t t') :
    StatementKind.ofToken? t = StatementKind.ofToken? t' := by
  have hword : (fun k : StatementKind => t.isWord k.word) = fun k => t'.isWord k.word := by
    funext k
    exact Coupling.isWord_eq ht (by cases k <;> decide)
  rw [StatementKind.ofToken?, StatementKind.ofToken?, hword]

lemma coupled_recoverStatement :
    Coupled C recoverStatement recoverStatement fun _ _ => True := by
  refine coupled_recover fun ht => ?_
  rw [endsStatement, endsStatement, C.kind_eq ht, ofToken?_eq ht]

lemma coupled_define (kind : SymbolKind) {t t' : Token} (h : C.leaf [.identifier] t t') :
    Coupled C (define kind t) (define kind t') fun _ _ => True :=
  fun _ _ hs => ⟨trivial, C.define kind hs h.1 (List.mem_singleton.1 h.2)⟩

lemma coupled_resolve (kind : SymbolKind) (site : ReferenceSite) {t t' : Token}
    (h : C.leaf [.identifier] t t') :
    Coupled C (resolve kind site t) (resolve kind site t') fun _ _ => True :=
  fun _ _ hs => ⟨trivial, C.resolve kind site hs h.1 (List.mem_singleton.1 h.2)⟩

/-- Numbers are tested alike. -/
lemma coupled_requirePositive {f : Finding} (hf : Similar C.name C.literal f f)
    {n n' : Option Token} (h : Option.Rel (C.leaf [.number]) n n') :
    Coupled C (requirePositive f n) (requirePositive f n') fun _ _ => True := by
  cases h with
  | none => exact coupled_pure trivial
  | some ht =>
    have htext := C.number_text ht.1 (List.mem_singleton.1 ht.2)
    refine coupled_ite (by rw [htext]) (fun _ _ => coupled_pure trivial) fun _ _ => ?_
    exact coupled_report ht.1 hf

/-! ## Loops -/

/-- Remarks about the items of two lists. -/
lemma coupled_forM {f f' : α → Check Unit} {R : α → α → Prop}
    (hf : ∀ a a', R a a' → Coupled C (f a) (f' a') fun _ _ => True) {as as' : List α}
    (h : List.Forall₂ R as as') : Coupled C (as.forM f) (as'.forM f') fun _ _ => True := by
  induction h with
  | nil => exact coupled_pure trivial
  | cons ha _ ih => exact (hf _ _ ha).bind fun _ _ _ => ih

/-- **Repetition.** Steps that are coupled are coupled when repeated: they go on alike, and pass
equally many tokens. -/
lemma coupled_iterate {step step' : α → Check (α × Bool)} {R : α → α → Prop}
    (hstep : ∀ a a', R a a' →
      Coupled C (step a) (step' a') fun r r' => R r.1 r'.1 ∧ r.2 = r'.2)
    {a a' : α} (ha : R a a') : Coupled C (iterate step a) (iterate step' a') R := by
  intro s s' hs
  induction hn : s.ahead.length using Nat.strongRecOn generalizing a a' s s' with
  | _ n ih =>
    subst hn
    obtain ⟨⟨hanswer, hgo⟩, hstate⟩ := hstep a a' ha s s' hs
    rw [CoupledAt, iterate_apply step a s, iterate_apply step' a' s', ← hgo,
      ← Coupling.length_ahead hs, ← Coupling.length_ahead hstate]
    split
    · rename_i hcond
      exact ih _ hcond.2 hanswer _ _ hstate rfl
    · exact ⟨hanswer, hstate⟩

/-- The items of a block. -/
lemma coupled_untilClosed {item item' : α → Check α} {R : α → α → Prop}
    (hitem : ∀ a a', R a a' → Coupled C (item a) (item' a') R) {a a' : α} (ha : R a a') :
    Coupled C (untilClosed item a) (untilClosed item' a') R := by
  refine coupled_iterate (fun a a' ha => ?_) ha
  refine coupled_get_bind fun s s' hs => ?_
  refine coupled_ite ?_ (fun _ _ => ?_) (fun _ _ => ?_) s s' hs
  · rw [Coupling.isAt_eq hs, Coupling.atEnd_eq hs]
  · exact coupled_pure ⟨ha, rfl⟩
  · exact (hitem a a' ha).bind fun b b' hb => coupled_pure ⟨hb, rfl⟩

/-- The items of a list between brackets. -/
lemma coupled_listed {item item' : α → Check α} {R : α → α → Prop}
    (hitem : ∀ a a', R a a' → Coupled C (item a) (item' a') R) {a a' : α} (ha : R a a') :
    Coupled C (listed item a) (listed item' a') R := by
  refine coupled_get_bind fun s s' hs => ?_
  refine coupled_ite ?_ (fun _ _ => coupled_pure ha) (fun _ _ => ?_) s s' hs
  · rw [Coupling.isAt_eq hs]
  · refine coupled_iterate (fun a a' ha => ?_) ha
    refine (hitem a a' ha).bind fun b b' hb => ?_
    exact (coupled_accept (.mark .comma)).bind fun g g' hg => coupled_pure ⟨hb, hg⟩

end Check

end WorkflowLint
