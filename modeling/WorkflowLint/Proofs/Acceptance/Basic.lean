import WorkflowLint.Proofs.Execution

/-!
# What a check reads if no expectation fails

A check never stops at an error: it reports what it expected and goes on. So whether a stretch of
tokens is grammatical is not a verdict of the check but a property of its reports.

## Design

`Check.Reads m P` says that the check `m` only moves forward and only adds reports, and that if no
expectation has failed behind it, then its answer and the tokens it passed are related by `P`.
Reports are never withdrawn, so this is closed under sequencing; what a check reads is put together
from what its parts read.

## Main definitions

* `WorkflowLint.Checker.Clean` — no expectation has failed so far.
* `WorkflowLint.Check.Reads` — what a check passes if no expectation fails.

## Main results

* `WorkflowLint.Check.Reads.bind` — sequencing.
* `WorkflowLint.Check.reads_expect`, `WorkflowLint.Check.reads_acceptWord` — single tokens.
* `WorkflowLint.Check.reads_optional`, `WorkflowLint.Check.reads_untilClosed`,
  `WorkflowLint.Check.reads_listed` — optional parts and loops.
-/

set_option autoImplicit false

namespace WorkflowLint

open Grammar

/-- No expectation has failed so far. -/
def Checker.Clean (s : Checker) : Prop :=
  ∀ d ∈ s.reports, ∀ what, d.finding ≠ .expected what

/-- With fewer reports there are fewer failed expectations. -/
lemma Checker.Clean.of_suffix {s s' : Checker} (h : s'.Clean) (hs : s.reports <:+ s'.reports) :
    s.Clean := by
  intro d hd
  exact h d (hs.subset hd)

/-- Passing a token moves forward and changes nothing else. -/
lemma Checker.skip_forward (s : Checker) :
    s.skip.eof = s.eof ∧ s.skip.reports = s.reports ∧ ∃ ts, s.ahead = ts ++ s.skip.ahead := by
  unfold Checker.skip
  split
  · exact ⟨rfl, rfl, [], rfl⟩
  · rename_i t ts h
    exact ⟨rfl, rfl, [t], h⟩

namespace Check

variable {α β : Type}

/-- From the state `s`, the check `m` only moves forward and only adds reports; and if no
expectation has failed behind it, then `P` relates its answer to the tokens it passed. -/
def ReadsAt (m : Check α) (P : α → List Token → Prop) (s : Checker) : Prop :=
  (m s).2.eof = s.eof ∧ s.reports <:+ (m s).2.reports ∧
    ∃ ts, s.ahead = ts ++ (m s).2.ahead ∧ ((m s).2.Clean → P (m s).1 ts)

/-- The same from every state of a script that ends with its end. -/
def Reads (m : Check α) (P : α → List Token → Prop) : Prop :=
  ∀ s : Checker, s.eof.kind = .eof → ReadsAt m P s

/-! ## Composition -/

/-- What a check reads may be described more loosely. -/
lemma ReadsAt.mono {m : Check α} {P Q : α → List Token → Prop} {s : Checker} (h : ReadsAt m P s)
    (hPQ : ∀ a ts, P a ts → Q a ts) : ReadsAt m Q s := by
  obtain ⟨heof, hrep, ts, hts, hP⟩ := h
  exact ⟨heof, hrep, ts, hts, fun hc => hPQ _ _ (hP hc)⟩

lemma Reads.mono {m : Check α} {P Q : α → List Token → Prop} (h : Reads m P)
    (hPQ : ∀ a ts, P a ts → Q a ts) : Reads m Q :=
  fun s hs => (h s hs).mono hPQ

/-- **Sequencing.** What the second check reads is described in terms of what the first has read.

**Proof sketch.** The tokens passed are those of the first check, then those of the second. If no
expectation has failed behind the second, then none has failed behind the first, because the second
withdraws no report; so both descriptions apply. -/
lemma ReadsAt.bind {m : Check α} {f : α → Check β} {P : α → List Token → Prop}
    {Q : β → List Token → Prop} {s : Checker} (hm : ReadsAt m P s)
    (hf : ReadsAt (f (m s).1) (fun b us => ∀ ts, P (m s).1 ts → Q b (ts ++ us)) (m s).2) :
    ReadsAt (m >>= f) Q s := by
  obtain ⟨heof, hrep, ts, hts, hP⟩ := hm
  obtain ⟨heof', hrep', us, hus, hQ⟩ := hf
  refine ⟨?_, ?_, ts ++ us, ?_, fun hc => ?_⟩
  · rw [bind_apply, heof', heof]
  · rw [bind_apply]
    exact hrep.trans hrep'
  · rw [bind_apply, hts, hus, List.append_assoc]
  · rw [bind_apply] at hc ⊢
    exact hQ hc ts (hP (hc.of_suffix hrep'))

lemma Reads.bind {m : Check α} {f : α → Check β} {P : α → List Token → Prop}
    {Q : β → List Token → Prop} (hm : Reads m P)
    (hf : ∀ a, Reads (f a) fun b us => ∀ ts, P a ts → Q b (ts ++ us)) : Reads (m >>= f) Q := by
  intro s hs
  refine (hm s hs).bind (hf _ _ ?_)
  rw [(hm s hs).1]
  exact hs

/-- An answer that is given without a look at the tokens passes none. -/
lemma reads_pure {a : α} {P : α → List Token → Prop} (h : P a []) : Reads (pure a) P := by
  intro s _
  exact ⟨rfl, List.suffix_rfl, [], rfl, fun _ => h⟩

/-- A check that looks at the state first goes on with that state. -/
lemma readsAt_get_bind {f : Checker → Check β} {Q : β → List Token → Prop} {s : Checker}
    (h : ReadsAt (f s) Q s) : ReadsAt (get >>= f) Q s := h

/-- A check that passes nothing leaves the description to what comes behind it. -/
lemma Reads.bind_silent {m : Check α} {f : α → Check β} {Q : β → List Token → Prop}
    (hm : Reads m fun _ ts => ts = []) (hf : ∀ a, Reads (f a) Q) : Reads (m >>= f) Q := by
  refine hm.bind fun a => (hf a).mono ?_
  rintro b us hQ ts rfl
  exact hQ

/-- A choice between two checks. -/
lemma readsAt_ite {c : Prop} [Decidable c] {m n : Check α} {P : α → List Token → Prop}
    {s : Checker} (hm : c → ReadsAt m P s) (hn : ¬ c → ReadsAt n P s) :
    ReadsAt (if c then m else n) P s := by
  split
  · exact hm ‹_›
  · exact hn ‹_›

lemma reads_ite {c : Prop} [Decidable c] {m n : Check α} {P : α → List Token → Prop}
    (hm : c → Reads m P) (hn : ¬ c → Reads n P) : Reads (if c then m else n) P :=
  fun s hs => readsAt_ite (fun h => hm h s hs) fun h => hn h s hs

/-- A check that passes nothing and is made under a condition, in front of `k`. -/
lemma reads_when {c : Prop} [Decidable c] {m : Check Unit} {k : Unit → Check β}
    {Q : β → List Token → Prop} (hm : Reads m fun _ ts => ts = []) (hk : Reads (k ()) Q) :
    Reads (if c then m >>= k else k ()) Q :=
  reads_ite (fun _ => hm.bind_silent fun _ => hk) fun _ => hk

/-- A check that passes nothing and is made unless a condition holds, in front of `k`. -/
lemma reads_unless {c : Prop} [Decidable c] {m : Check Unit} {k : Unit → Check β}
    {Q : β → List Token → Prop} (hm : Reads m fun _ ts => ts = []) (hk : Reads (k ()) Q) :
    Reads (if c then k () else m >>= k) Q :=
  reads_ite (fun _ => hk) fun _ => hm.bind_silent fun _ => hk

/-- The answer of a check may be dropped. -/
lemma ReadsAt.discard {m : Check α} {P : α → List Token → Prop} {s : Checker}
    (h : ReadsAt m P s) : ReadsAt (discard m) (fun _ ts => ∃ a, P a ts) s := by
  obtain ⟨heof, hrep, ts, hts, hP⟩ := h
  exact ⟨heof, hrep, ts, hts, fun hc => ⟨_, hP hc⟩⟩

lemma Reads.discard {m : Check α} {P : α → List Token → Prop} (h : Reads m P) :
    Reads (discard m) fun _ ts => ∃ a, P a ts :=
  fun s hs => (h s hs).discard

/-! ## Building blocks -/

/-- A report passes no token. A failed expectation contradicts that none has failed. -/
lemma reads_report (f : Finding) (t : Token) :
    Reads (report f t) fun _ ts => ts = [] ∧ ∀ what, f ≠ .expected what := by
  intro s _
  refine ⟨rfl, List.suffix_cons _ _, [], rfl, fun hc => ⟨rfl, ?_⟩⟩
  exact hc _ (List.mem_cons_self ..)

lemma reads_reportCurrent (f : Finding) :
    Reads (reportCurrent f) fun _ ts => ts = [] ∧ ∀ what, f ≠ .expected what := by
  intro s hs
  exact reads_report f s.current s hs

/-- A state that is not at its end faces its first token. -/
lemma ahead_eq_of_kind_ne {s : Checker} (h : s.current.kind ≠ s.eof.kind) :
    s.ahead = s.current :: s.skip.ahead := by
  cases hs : s.ahead with
  | nil => simp [Checker.current, hs] at h
  | cons t ts => simp [Checker.current, Checker.skip, hs]

/-- Passing a token that is not the end. -/
lemma readsAt_skip {a : α} {m : Check α} {P : α → List Token → Prop} {s : Checker}
    (hm : m s = (a, s.skip)) (hk : s.current.kind ≠ s.eof.kind) (hP : P a [s.current]) :
    ReadsAt m P s := by
  obtain ⟨heof, hrep, -⟩ := s.skip_forward
  rw [ReadsAt, hm]
  exact ⟨heof, hrep ▸ List.suffix_rfl, [s.current], ahead_eq_of_kind_ne hk, fun _ => hP⟩

/-- Passing the token at hand, if it is not the end. -/
lemma readsAt_advance {s : Checker} (hk : s.current.kind ≠ s.eof.kind) :
    ReadsAt advance (fun _ ts => ts = [s.current]) s :=
  readsAt_skip rfl hk rfl

/-- Expecting a token of some kinds passes one. -/
lemma reads_expect {kinds : List TokenKind} (hkinds : .eof ∉ kinds) (what : String) :
    Reads (expect kinds (.expected what)) fun o ts =>
      ∃ l : Leaf kinds, o = some l.token ∧ ts = [l.token] := by
  intro s hs
  by_cases h : s.isAt kinds = true
  · have hmem : s.current.kind ∈ kinds := by simpa [Checker.isAt] using h
    have hne : s.current.kind ≠ s.eof.kind := by
      intro he
      rw [he, hs] at hmem
      exact hkinds hmem
    exact readsAt_skip (by rw [expect_apply, if_pos h]) hne ⟨⟨s.current, hmem⟩, rfl, rfl⟩
  · have hrun : expect kinds (.expected what) s =
        (none, (report (.expected what) s.current s).2) := by
      rw [expect_apply, if_neg h]
    obtain ⟨heof, hrep, ts, hts, hP⟩ := reads_report (.expected what) s.current s hs
    rw [ReadsAt, hrun]
    exact ⟨heof, hrep, ts, hts, fun hc => absurd rfl ((hP hc).2 what)⟩

/-- A state of a script that is at a word is not at the end. -/
lemma kind_ne_of_isAtWord {s : Checker} {word : String} (hs : s.eof.kind = .eof)
    (h : s.isAtWord word = true) : s.current.kind ≠ s.eof.kind := by
  simp only [Checker.isAtWord, Token.isWord, Bool.and_eq_true, beq_iff_eq] at h
  rw [hs, h.1]
  exact TokenKind.noConfusion

/-- Expecting a word passes it. -/
lemma reads_expectWord (word what : String) :
    Reads (expectWord word (.expected what)) fun _ ts => ∃ w : Word word, ts = [w.token] := by
  intro s hs
  by_cases h : s.isAtWord word = true
  · exact readsAt_skip (by rw [expectWord_apply, if_pos h]) (kind_ne_of_isAtWord hs h)
      ⟨⟨s.current, h⟩, rfl⟩
  · have hrun : expectWord word (.expected what) s =
        (none, (report (.expected what) s.current s).2) := by
      rw [expectWord_apply, if_neg h]
    obtain ⟨heof, hrep, ts, hts, hP⟩ := reads_report (.expected what) s.current s hs
    rw [ReadsAt, hrun]
    exact ⟨heof, hrep, ts, hts, fun hc => absurd rfl ((hP hc).2 what)⟩

/-- Accepting a word passes it, or else nothing. -/
lemma reads_acceptWord (word : String) :
    Reads (acceptWord word) fun b ts =>
      (b = true ∧ ∃ w : Word word, ts = [w.token]) ∨ (b = false ∧ ts = []) := by
  intro s hs
  by_cases h : s.isAtWord word = true
  · exact readsAt_skip (by rw [acceptWord_apply, if_pos h]) (kind_ne_of_isAtWord hs h)
      (.inl ⟨rfl, ⟨s.current, h⟩, rfl⟩)
  · have hrun : acceptWord word s = (false, s) := by
      rw [acceptWord_apply, if_neg h]
    rw [ReadsAt, hrun]
    exact ⟨rfl, List.suffix_rfl, [], rfl, fun _ => .inr ⟨rfl, rfl⟩⟩

lemma reads_expectName (what : String) :
    Reads (expectName what) fun o ts => ∃ l : Name, o = some l.token ∧ ts = [l.token] :=
  reads_expect (by decide) what

lemma reads_expectNumber (what : String) :
    Reads (expectNumber what) fun o ts => ∃ l : Numeral, o = some l.token ∧ ts = [l.token] :=
  reads_expect (by decide) what

lemma reads_expectLiteral (what : String) :
    Reads (expectLiteral what) fun o ts => ∃ l : Literal, o = some l.token ∧ ts = [l.token] :=
  reads_expect (by decide) what

/-- Expecting a token of some kinds, whatever it is. -/
lemma reads_expectLeaf {kinds : List TokenKind} (hkinds : .eof ∉ kinds) (what : String) :
    Reads (discard (expect kinds (.expected what))) fun _ ts =>
      ∃ l : Leaf kinds, ts = [l.token] := by
  refine (reads_expect hkinds what).discard.mono ?_
  rintro _ ts ⟨o, l, -, rfl⟩
  exact ⟨l, rfl⟩

lemma reads_expectMark (m : Mark) (what : String) :
    Reads (expectMark m what) fun _ ts => ∃ l : Punct m, ts = [l.token] :=
  reads_expectLeaf (by simp) what

lemma reads_expectKeyword (word what : String) :
    Reads (expectKeyword word what) fun _ ts => ∃ w : Word word, ts = [w.token] := by
  refine (reads_expectWord word what).discard.mono ?_
  rintro _ ts ⟨o, w, rfl⟩
  exact ⟨w, rfl⟩

/-- Recovery moves forward and reports nothing. -/
lemma reads_recover (stop : Token → Bool) : Reads (recover stop) fun _ _ => True := by
  intro s _
  have haccept : ∀ s, ReadsAt (discard (accept (.mark .semicolon))) (fun _ _ => True) s := by
    intro s
    rw [ReadsAt, discard_apply, accept_apply]
    split
    · obtain ⟨heof, hrep, ts, hts⟩ := s.skip_forward
      exact ⟨heof, hrep ▸ List.suffix_rfl, ts, hts, fun _ => trivial⟩
    · exact ⟨rfl, List.suffix_rfl, [], rfl, fun _ => trivial⟩
  refine ReadsAt.bind (P := fun _ _ => True) ?_ ((haccept _).mono fun _ _ _ _ _ => trivial)
  exact ⟨rfl, List.suffix_rfl, _, List.takeWhile_append_dropWhile.symm, fun _ => trivial⟩

/-- Behind a name that is missing an expectation has failed, so nothing is said. -/
lemma reads_recover_missing {kinds : List TokenKind}
    {Q : Unit → List Token → List Token → Prop} (stop : Token → Bool) :
    Reads (recover stop) fun b us =>
      ∀ ts, (∃ l : Leaf kinds, none = some l.token ∧ ts = [l.token]) → Q b us ts := by
  refine (reads_recover stop).mono ?_
  rintro b us - ts ⟨l, hnone, -⟩
  cases hnone

/-- A name is entered without passing a token. -/
lemma reads_define (kind : SymbolKind) (name : Token) :
    Reads (define kind name) fun _ ts => ts = [] := by
  intro s hs
  have hreport := reads_report (.duplicateDefinition kind name.text) name s hs
  rw [ReadsAt, define_apply]
  split
  · exact hreport.mono fun _ _ h => h.1
  · exact ⟨rfl, List.suffix_rfl, [], rfl, fun _ => rfl⟩

/-- A reference is resolved without passing a token. -/
lemma reads_resolve (kind : SymbolKind) (site : ReferenceSite) (name : Token) :
    Reads (resolve kind site name) fun _ ts => ts = [] := by
  intro s hs
  have hreport := reads_report (.unresolved kind name.text site) name s hs
  rw [ReadsAt, resolve_apply]
  split
  · exact ⟨rfl, List.suffix_rfl, [], rfl, fun _ => rfl⟩
  · exact hreport.mono fun _ _ h => h.1

/-- A number is tested without passing a token. -/
lemma reads_requirePositive {f : Finding} (n : Option Token) :
    Reads (requirePositive f n) fun _ ts => ts = [] := by
  cases n with
  | none => exact reads_pure rfl
  | some t =>
    refine reads_ite (fun _ => reads_pure rfl) fun _ => ?_
    exact (reads_report _ _).mono fun _ _ h => h.1

/-- Remarks about the items of a list are made without passing a token. -/
lemma reads_forM (as : List α) {f : α → Check Unit} (hf : ∀ a, Reads (f a) fun _ ts => ts = []) :
    Reads (as.forM f) fun _ ts => ts = [] := by
  induction as with
  | nil => exact reads_pure rfl
  | cons a as ih => exact (hf a).bind_silent fun _ => ih

/-! ## Optional parts and loops -/

/-- **A keyword decides.** Behind the keyword the check goes on with `m`; without it, with `n` from
the same state. -/
lemma readsAt_keyword {word : String} {m n : Check α} {Q : α → List Token → Prop} {s : Checker}
    (hs : s.eof.kind = .eof) (hm : Reads m fun a ts => ∀ w : Word word, Q a (w.token :: ts))
    (hn : s.isAtWord word = false → ReadsAt n Q s) :
    ReadsAt (acceptWord word >>= fun given => if given then m else n) Q s := by
  by_cases h : s.isAtWord word = true
  · have hrun : acceptWord word s = (true, s.skip) := by rw [acceptWord_apply, if_pos h]
    have hskip := readsAt_skip (P := fun _ ts => ts = [s.current]) hrun
      (kind_ne_of_isAtWord hs h) rfl
    refine hskip.bind ?_
    rw [hrun]
    refine (hm s.skip (by rw [s.skip_forward.1, hs])).mono ?_
    rintro a us hQ _ rfl
    exact hQ ⟨s.current, h⟩
  · have hrun : acceptWord word s = (false, s) := by rw [acceptWord_apply, if_neg h]
    rw [ReadsAt, bind_apply, hrun]
    exact hn (Bool.not_eq_true _ ▸ h)

lemma reads_keyword {word : String} {m n : Check α} {Q : α → List Token → Prop}
    (hm : Reads m fun a ts => ∀ w : Word word, Q a (w.token :: ts)) (hn : Reads n Q) :
    Reads (acceptWord word >>= fun given => if given then m else n) Q :=
  fun s hs => readsAt_keyword hs hm fun _ => hn s hs

/-- **An optional part.** It is there if its keyword is, and then the tokens are those of the
keyword and of the part. -/
lemma reads_optional {word : String} {m : Check Unit} {k : Unit → Check β}
    {P : List Token → Prop} {Q : β → List Token → Prop} (hm : Reads m fun _ ts => P ts)
    (hk : Reads (k ()) fun b us =>
      ∀ ts, (ts = [] ∨ ∃ (w : Word word) (vs : List Token), ts = w.token :: vs ∧ P vs) →
        Q b (ts ++ us)) :
    Reads (acceptWord word >>= fun given => if given then m >>= k else k ()) Q := by
  refine reads_keyword (hm.bind fun _ => hk.mono ?_) (hk.mono ?_)
  · intro b us hQ vs hP w
    exact hQ (w.token :: vs) (.inr ⟨w, vs, rfl, hP⟩)
  · intro b us hQ
    exact hQ [] (.inl rfl)

/-- **The items of a block.** If every item spells something, then so do all together.

**Proof sketch.** Induction on the number of tokens ahead. The loop stops in front of a closing
brace or the end, where nothing is passed, or behind an item that passed nothing, which is then the
last. -/
lemma reads_untilClosed {item : β → Check β} {spells : α → List Token → Prop}
    (hitem : ∀ b, Reads (item b) fun _ ts => ∃ a, spells a ts) (b : β) :
    Reads (untilClosed item b) fun _ ts => ∃ as, Sequence spells as ts := by
  intro s hs
  induction hn : s.ahead.length using Nat.strongRecOn generalizing b s with
  | _ n ih =>
    subst hn
    have hstep := hitem b s hs
    rw [ReadsAt, untilClosed_apply]
    split
    · exact ⟨rfl, List.suffix_rfl, [], rfl, fun _ => ⟨[], .nil⟩⟩
    · obtain ⟨heof, hrep, ts, hts, hP⟩ := hstep
      split
      · rename_i hlt
        obtain ⟨heof', hrep', us, hus, hQ⟩ := ih _ hlt (item b s).1 _ (heof ▸ hs) rfl
        refine ⟨heof'.trans heof, hrep.trans hrep', ts ++ us, ?_, fun hc => ?_⟩
        · rw [hts, hus, List.append_assoc]
        · obtain ⟨a, ha⟩ := hP (hc.of_suffix hrep')
          obtain ⟨as, has⟩ := hQ hc
          exact ⟨a :: as, .cons ha has⟩
      · refine ⟨heof, hrep, ts, hts, fun hc => ?_⟩
        obtain ⟨a, ha⟩ := hP hc
        exact ⟨[a], List.append_nil ts ▸ .cons ha .nil⟩

/-- **A list with commas.** If every item is a leaf, then all together are leaves with commas in
between.

**Proof sketch.** Induction on the number of tokens ahead. If no expectation fails then the item
passed a token, and so the loop goes on behind a comma. -/
lemma reads_separated {kinds : List TokenKind} {item : β → Check β}
    (hitem : ∀ b, Reads (item b) fun _ ts => ∃ l : Leaf kinds, ts = [l.token]) (b : β) :
    Reads (separated item b) fun _ ts => ∃ as : List (Leaf kinds), Commas as ts := by
  intro s hs
  induction hn : s.ahead.length using Nat.strongRecOn generalizing b s with
  | _ n ih =>
    subst hn
    obtain ⟨heof, hrep, ts, hts, hP⟩ := hitem b s hs
    have hs' : (item b s).2.eof.kind = .eof := heof ▸ hs
    rw [ReadsAt, separated_apply]
    split
    · rename_i hcomma
      have hmem : (item b s).2.current.kind = .mark .comma := by
        simpa [Checker.isAt] using hcomma
      have hne : (item b s).2.current.kind ≠ (item b s).2.eof.kind := by
        rw [hmem, hs']
        exact TokenKind.noConfusion
      have hahead := ahead_eq_of_kind_ne hne
      obtain ⟨heof', hrep', -⟩ := (item b s).2.skip_forward
      -- a comma is passed, so the loop goes on
      have hlt : (item b s).2.skip.ahead.length < s.ahead.length := by
        rw [hts, hahead, List.length_append, List.length_cons]
        omega
      obtain ⟨heof'', hrep'', us, hus, hQ⟩ :=
        ih _ hlt (item b s).1 _ (by rw [heof', hs']) rfl
      rw [if_pos hlt]
      rw [hrep'] at hrep''
      refine ⟨by rw [heof'', heof', heof], hrep.trans hrep'', ts ++ (item b s).2.current :: us, ?_,
        fun hc => ?_⟩
      · rw [hts, hahead, hus, List.append_assoc, List.cons_append]
      · obtain ⟨l, rfl⟩ := hP (hc.of_suffix hrep'')
        obtain ⟨as, has⟩ := hQ hc
        exact ⟨l :: as, .cons l ⟨_, List.mem_singleton.2 hmem⟩ has⟩
    · refine ⟨heof, hrep, ts, hts, fun hc => ?_⟩
      obtain ⟨l, rfl⟩ := hP hc
      exact ⟨[l], .last l⟩

/-- **A list between brackets**, which may be empty. -/
lemma reads_listed {kinds : List TokenKind} {item : β → Check β}
    (hitem : ∀ b, Reads (item b) fun _ ts => ∃ l : Leaf kinds, ts = [l.token]) (b : β) :
    Reads (listed item b) fun b' ts =>
      (b' = b ∧ ts = []) ∨ ∃ as : List (Leaf kinds), Commas as ts := by
  intro s hs
  have hsep := reads_separated hitem b s hs
  rw [ReadsAt, listed_apply]
  split
  · exact ⟨rfl, List.suffix_rfl, [], rfl, fun _ => .inl ⟨rfl, rfl⟩⟩
  · obtain ⟨heof, hrep, ts, hts, hP⟩ := hsep
    exact ⟨heof, hrep, ts, hts, fun hc => .inr (hP hc)⟩

end Check

end WorkflowLint
