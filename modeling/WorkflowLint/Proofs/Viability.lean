import WorkflowLint.Proofs.Relocation
import WorkflowLint.Proofs.Viability.Statements

/-!
# The first failed expectation is the earliest possible

A token list is viable if it can be continued to a script of the grammar with its end behind. The
first failed expectation of a check is about the first token with which the list is viable no more:
no earlier, because the tokens in front of it are viable, and no later.

There are two exceptions, in which the token in front of that one is blamed: a key in a cadence
without an equals sign behind it, and the opening bracket of an empty list of source files.

## Main definitions

* `WorkflowLint.Grammar.Viable` — prefixes of scripts with their end.
* `WorkflowLint.Grammar.Postponed` — the two exceptions, behind some statements.

## Main results

* `WorkflowLint.Check.outcome_script` — a script is read without a failed expectation, or complained
  of in time.
* `WorkflowLint.Check.first_expectation_earliest` — the place of the first failed expectation.
-/

set_option autoImplicit false

namespace WorkflowLint

open Grammar

namespace Grammar

/-- A token list that can be continued to a script with its end. -/
def Viable (us : List Token) : Prop :=
  ∃ (t : TokenStream) (sc : Script), sc.Spells t.tokens ∧ us <+: t.tokens ++ [t.eof]

/-- A script that is broken off such that a token is blamed because of the one behind it. -/
inductive Postponed : List Token → Token → Token → Prop
  | behind {sc : Script} {ts us : List Token} {y x : Token} :
      sc.Spells ts → Delayed us y x → Postponed (ts ++ us) y x

/-! ## Completions -/

lemma Viable.of_prefix {us vs : List Token} (h : Viable us) (hvs : vs <+: us) : Viable vs := by
  obtain ⟨t, sc, hsc, hus⟩ := h
  exact ⟨t, sc, hsc, hvs.trans hus⟩

/-- A statement may stand in front. -/
lemma Viable.prepend {st : Statement} {ts us : List Token} (h : Viable us) (hst : st.Spells ts)
    (hts : ∀ t ∈ ts, t.kind ≠ .eof) : Viable (ts ++ us) := by
  obtain ⟨t, sc, hsc, hus⟩ := h
  refine ⟨⟨ts ++ t.tokens, t.eof, t.eof_kind, List.forall_mem_append.2 ⟨hts, t.kind_ne_eof⟩⟩,
    st :: sc, .cons hst hsc, ?_⟩
  rw [List.append_assoc, List.prefix_append_right_inj]
  exact hus

lemma Postponed.prepend {st : Statement} {ts us : List Token} {y x : Token}
    (h : Postponed us y x) (hst : st.Spells ts) : Postponed (ts ++ us) y x := by
  cases h with
  | behind hsc hdelayed =>
    rw [← List.append_assoc]
    exact .behind (.cons hst hsc) hdelayed

lemma viable_of_spells {sc : Script} {us vs : List Token} (h : sc.Spells (us ++ vs))
    (hkind : ∀ t ∈ us ++ vs, t.kind ≠ .eof) : Viable us :=
  ⟨⟨us ++ vs, .eofAt .origin, rfl, hkind⟩, sc, h,
    (List.prefix_append us vs).trans (List.prefix_append _ _)⟩

lemma Sequence.append {α : Type} {spells : α → List Token → Prop} {as bs : List α}
    {ts us : List Token} (h : Sequence spells as ts) (h' : Sequence spells bs us) :
    Sequence spells (as ++ bs) (ts ++ us) := by
  induction h with
  | nil => exact h'
  | cons ha _ ih =>
    rw [List.append_assoc]
    exact .cons ha ih

lemma Sequence.singleton {α : Type} {spells : α → List Token → Prop} {a : α} {ts : List Token}
    (h : spells a ts) : Sequence spells [a] ts := by
  rw [← List.append_nil ts]
  exact .cons h .nil

/-- Every key of a cadence can have a value. -/
lemma exists_cadenceValue (key : String) :
    ∃ v : Leaf (cadenceValue key), v.token.kind ≠ .eof := by
  have hkinds : cadenceValue key ≠ [] ∧ .eof ∉ cadenceValue key := by
    unfold cadenceValue
    split_ifs
    · decide
    · decide
    · decide
  obtain ⟨kind, hkind⟩ := List.exists_mem_of_ne_nil _ hkinds.1
  exact ⟨⟨⟨kind, "", default⟩, hkind⟩, fun heof => hkinds.2 (heof ▸ hkind)⟩

lemma Delayed.ne_nil {us : List Token} {y x : Token} (h : Delayed us y x) : us ≠ [] := by
  cases h with
  | key _ _ _ _ _ _ _ _ => exact List.cons_ne_nil _ _
  | bracket _ _ _ _ _ _ => exact List.cons_ne_nil _ _

/-- **What is blamed in the exceptions could be continued**: the key with an equals sign and a
value, the bracket with a path. -/
lemma Delayed.completed {us : List Token} {y x : Token} (h : Delayed us y x) :
    ∃ (st : Statement) (vs : List Token), st.Spells (us ++ y :: vs) ∧ ∀ t ∈ vs, t.kind ≠ .eof := by
  let semicolon : Punct .semicolon := ⟨⟨.mark .semicolon, ";", default⟩, by decide⟩
  cases h with
  | @key items ts _ keyword name opening key hitems hcompare hkeep hnext =>
    obtain ⟨value, hvalue⟩ := exists_cadenceValue key.token.text
    let equals : Punct .equals := ⟨⟨.mark .equals, "=", default⟩, by decide⟩
    let closing : Punct .closeBrace := ⟨⟨.mark .closeBrace, "\x7d", default⟩, by decide⟩
    have hitem : CadenceItem.Spells (.assign ⟨key, value⟩ ⟨hcompare, hkeep⟩)
        [key.token, equals.token, value.token, semicolon.token] :=
      .assign _ (.mk ⟨key, value⟩ equals semicolon)
    have hspells := Statement.Spells.cadence keyword name opening closing
      (hitems.append (.singleton hitem))
    refine ⟨.cadence name (items ++ [.assign ⟨key, value⟩ ⟨hcompare, hkeep⟩]),
      [equals.token, value.token, semicolon.token, closing.token], ?_, ?_⟩
    · simpa using hspells
    · simp [hvalue]
  | bracket keyword name source files opening closing =>
    let path : Quoted := ⟨⟨.string, "", default⟩, by decide⟩
    have hspells := Statement.Spells.create keyword name source semicolon
      (.files files opening closing (.last path)) .absent .absent
    refine ⟨.create name (.files path []) [] [],
      [path.token, closing.token, semicolon.token], ?_, ?_⟩
    · simpa using hspells
    · simp

lemma viable_of_postponed {before : List Token} {y x : Token} (h : Postponed before y x)
    (hkind : ∀ t ∈ before ++ [y], t.kind ≠ .eof) : Viable (before ++ [y]) := by
  cases h with
  | @behind sc ts us _ _ hsc hdelayed =>
    obtain ⟨st, vs, hst, hvs⟩ := hdelayed.completed
    have hspells : Sequence Statement.Spells (sc ++ [st]) (ts ++ us ++ [y] ++ vs) := by
      have happend := hsc.append (Sequence.singleton hst)
      simpa using happend
    exact viable_of_spells hspells (List.forall_mem_append.2 ⟨hkind, hvs⟩)

end Grammar

namespace Check

/-! ## Scripts -/

/-- In front of anything but the end, a script goes on with a statement. -/
lemma script_of_open {s : Checker} (hs : s.Ready) (hkind : s.current.kind ≠ .eof) :
    script s = (scriptItem >>= fun _ => script) s := by
  have hopen : s.atEnd = false := by
    rw [Checker.atEnd, hs.ahead_eq hkind]
    rfl
  have hlt := passes_scriptItem hs.eof_kind hopen
  rw [Passes] at hlt
  rw [script_apply, hopen, if_neg Bool.false_ne_true, if_pos hlt]
  rfl

lemma forward_script : Forward script := forward_iterate Loop.statements.forward ()

/-- A complaint of a statement is one of the script. -/
lemma complains_script {t y : Token} {us : List Token} (h : Complains scriptItem (t :: us) y)
    (hkind : t.kind ≠ .eof) : Complains script (t :: us) y := by
  refine (h.bind reads_scriptItem.forward fun _ => forward_script).of_current fun s hs hcurrent =>
    script_of_open hs ?_
  rwa [hcurrent]

/-- What is complained of behind a statement is complained of with it in front. -/
lemma complains_behind_statement {ts us : List Token} {x y : Token} (h : Takes scriptItem () ts)
    (hf : Complains script (us ++ [x]) y) : Complains script (ts ++ us ++ [x]) y := by
  obtain ⟨st, hst⟩ := h.reads reads_scriptItem
  obtain ⟨t, ts, rfl⟩ := List.exists_cons_of_ne_nil (statement_ne_nil hst)
  have hbehind := h.complains (f := fun _ => script) hf
  refine hbehind.of_current fun s hs hcurrent => script_of_open hs ?_
  rw [hcurrent]
  exact h.1 t (List.mem_cons_self ..)

/-- **The exceptions.** The token in front of the one that cannot stand there is blamed. -/
lemma complains_of_postponed {before : List Token} {y x : Token} (h : Postponed before y x)
    (hkind : ∀ t ∈ before, t.kind ≠ .eof) : Complains script (before ++ [y] ++ [x]) y := by
  cases h with
  | @behind sc ts us _ _ hsc hdelayed =>
    induction hsc with
    | nil =>
      obtain ⟨t, us, rfl⟩ := List.exists_cons_of_ne_nil hdelayed.ne_nil
      exact complains_script (complains_of_delayed hdelayed hkind) (hkind t (List.mem_cons_self ..))
    | @cons st sc ts vs hst _ ih =>
      rw [List.append_assoc, List.forall_mem_append] at hkind
      have hbehind := complains_behind_statement (takes_scriptItem hst hkind.1) (ih hkind.2)
      simpa using hbehind

/-- Tokens that are complained of are not viable: over a script, nothing is complained of. -/
lemma not_viable_of_complains {us : List Token} {y : Token} (h : Complains script us y) :
    ¬ Viable us := by
  rintro ⟨t, sc, hsc, hus⟩
  have hready := Checker.ready_start t.kind_ne_eof t.eof_kind
  refine (h (.start t.tokens t.eof []) hready hus).not_tidy ?_
  have hrun : script (.start t.tokens t.eof []) = ((), finish (.start t.tokens t.eof [])) := rfl
  rw [hrun, Checker.start, finish_of_spells hsc]
  intro d hd
  simp only [List.reverse_nil, List.append_nil, List.mem_reverse] at hd
  exact isRemark_of_mem_script hd

/-- Of the tokens that stand in front in the state `s`, those up to `x` are complained of, with `y`
blamed, and those in front of `x` are viable. -/
structure Faulted (s : Checker) (seen : List Token) (x y : Token) : Prop where
  view : seen ++ [x] <+: s.view
  complains : Complains script (seen ++ [x]) y
  blames : Blames Postponed seen x y
  viable : Viable seen

/-- **A script is read without a failed expectation, or complained of in time.**

**Proof sketch.** Induction on the number of tokens ahead. A statement that is complained of in time
makes the script complained of in time, and what it could take with others behind is a script of one
statement. A statement that is taken stands in front of what is complained of behind it. -/
lemma outcome_script {s : Checker} (hs : s.Ready) :
    (finish s).Tidy ∨ ∃ seen x y, Faulted s seen x y := by
  induction hn : s.ahead.length using Nat.strongRecOn generalizing s with
  | _ n ih =>
    subst hn
    by_cases hkind : s.current.kind = .eof
    · left
      rw [finish, script_apply, if_pos (by simp [Checker.atEnd, hs.ahead_eq_nil hkind])]
      exact hs.tidy
    · have hrun : script s = script (scriptItem s).2 := script_of_open hs hkind
      cases (guided_scriptItem (c := True)).outcome trivial s hs with
      | @takes a ts htakes hts =>
        obtain ⟨rest, hahead⟩ := hts
        obtain ⟨st, hst⟩ := htakes.reads reads_scriptItem
        obtain ⟨-, hready, hrest, -⟩ := htakes.2 s rest hs hahead.symm
        have hlt : (scriptItem s).2.ahead.length < s.ahead.length := by
          have hpos := List.length_pos_iff.2 (statement_ne_nil hst)
          rw [hrest, ← hahead, List.length_append]
          omega
        rcases ih _ hlt hready rfl with htidy | ⟨seen, x, y, hfault⟩
        · left
          rwa [finish, hrun]
        · refine .inr ⟨ts ++ seen, x, y, ?_, ?_, ?_, ?_⟩
          · rw [htakes.view hs hahead.symm, List.append_assoc, List.prefix_append_right_inj]
            exact hfault.view
          · exact complains_behind_statement htakes hfault.complains
          · exact (hfault.blames.mono fun _ _ _ h => h.prepend hst).prepend
          · exact hfault.viable.prepend hst htakes.1
      | @complains seen x y hview hcomplains hblames hrepair =>
        refine .inr ⟨seen, x, y, hview, ?_, hblames.mono fun _ _ _ h => .behind .nil h, ?_⟩
        · obtain ⟨us, hus⟩ : ∃ us, seen ++ [x] = s.current :: us := by
            obtain ⟨t, us, htus⟩ := List.exists_cons_of_ne_nil (List.concat_ne_nil x seen)
            rw [htus] at hview ⊢
            exact ⟨us, by rw [Checker.current_eq_of_prefix hview]⟩
          rw [hus] at hcomplains ⊢
          exact complains_script hcomplains hkind
        · cases seen with
          | nil =>
            have hempty : Script.Spells [] ([] ++ []) := .nil
            exact viable_of_spells hempty (List.forall_mem_nil _)
          | cons t seen =>
            obtain ⟨a, vs, htakes⟩ := hrepair (List.cons_ne_nil t seen)
            obtain ⟨st, hst⟩ := htakes.reads reads_scriptItem
            exact viable_of_spells (.singleton hst) htakes.1

/-! ## The first complaint -/

/-- What was reported before a check is kept, and changes nothing else. -/
lemma reported_finish_start (tokens : List Token) (eof : Token) (earlier : List Diagnostic) :
    (finish (.start tokens eof earlier)).reported =
      earlier ++ (finish (.start tokens eof [])).reported := by
  have hsame : List.Forall₂ (SameToken Eq) tokens tokens :=
    List.forall₂_same.2 fun _ _ => ⟨rfl, rfl, rfl⟩
  have hstart : Relocated Eq earlier.reverse [] [] (.start tokens eof earlier)
      (.start tokens eof []) :=
    ⟨hsame, ⟨rfl, rfl, rfl⟩, ⟨[], [], rfl, rfl, .nil⟩, ⟨[], [], rfl, rfl, .nil⟩, rfl⟩
  obtain ⟨new, new', hnew, hnew', hreports⟩ := (finish_relocated hstart).reports
  have heq : new = new' := by
    refine List.forall₂_eq_eq_eq ▸ hreports.imp ?_
    rintro ⟨f, r⟩ ⟨f', r'⟩ ⟨hf, hr⟩
    exact congrArg₂ Diagnostic.mk hf hr
  rw [Checker.reported, Checker.reported, hnew, hnew', heq]
  simp

/-- The first item of a list with a property is unique. -/
lemma first_unique {α : Type} {p : α → Prop} {as bs cs ds : List α} {a b : α}
    (h : as ++ a :: bs = cs ++ b :: ds) (has : ∀ c ∈ as, ¬ p c) (ha : p a)
    (hcs : ∀ c ∈ cs, ¬ p c) (hb : p b) : a = b := by
  classical
  have hfind : ∀ {front back : List α} {c : α}, (∀ c ∈ front, ¬ p c) → p c →
      (front ++ c :: back).find? (fun c => decide (p c)) = some c := by
    intro front back c hfront hc
    exact List.find?_eq_some_iff_append.2
      ⟨decide_eq_true hc, front, back, rfl, fun a ha => by simpa using hfront a ha⟩
  rw [← Option.some.injEq, ← hfind has ha, h, hfind hcs hb]

/-- The first diagnostic whose message begins with "Expected" is about the token that is blamed
first. -/
lemma range_of_firstAt {reports pre post : List Diagnostic} {d : Diagnostic} {y : Token}
    (h : FirstAt reports y) (hreports : reports.reverse = pre ++ d :: post)
    (hpre : ∀ e ∈ pre, ¬ "Expected".toList <+: e.message.toList)
    (hd : "Expected".toList <+: d.message.toList) : d.range = y.range := by
  obtain ⟨later, e, earlier, rfl, ⟨what, hwhat⟩, hrange, hearlier⟩ := h
  have hmessage := Finding.expected_message what
  rw [← hwhat] at hmessage
  rw [List.reverse_append, List.reverse_cons, List.append_assoc, List.singleton_append] at hreports
  have hsame : e = d := first_unique hreports
    (fun a ha => Finding.isRemark_message (hearlier a (List.mem_reverse.1 ha))) hmessage hpre hd
  rw [← hsame, hrange]

/-- There is one place in a list of tokens up to which they are viable. -/
lemma viable_unique {us vs ts : List Token} {x x' : Token} (hus : us ++ [x] <+: ts)
    (hvs : vs ++ [x'] <+: ts) (h : Viable us) (hx : ¬ Viable (us ++ [x])) (h' : Viable vs)
    (hx' : ¬ Viable (vs ++ [x'])) : us ++ [x] = vs ++ [x'] := by
  rcases List.prefix_or_prefix_of_prefix hus hvs with hprefix | hprefix
  · rcases List.prefix_concat_iff.1 hprefix with heq | hshort
    · exact heq
    · exact absurd (h'.of_prefix hshort) hx
  · rcases List.prefix_concat_iff.1 hprefix with heq | hshort
    · exact heq.symm
    · exact absurd (h.of_prefix hshort) hx'

/-- Where one of the exceptions stands, the tokens are viable up to the one that is blamed. -/
lemma viable_of_exception {s : Checker} (hs : s.Ready) {before : List Token} {y x : Token}
    (hview : before ++ [y] ++ [x] <+: s.view) (h : Postponed before y x) :
    Viable (before ++ [y]) ∧ ¬ Viable (before ++ [y] ++ [x]) := by
  have hahead := Checker.prefix_ahead_of_prefix_view hview
  have hkind : ∀ t ∈ before ++ [y], t.kind ≠ .eof := fun t ht =>
    hs.kind_ne_eof t (hahead.subset ht)
  refine ⟨viable_of_postponed h hkind, not_viable_of_complains (complains_of_postponed h ?_)⟩
  exact (List.forall_mem_append.1 hkind).1

/-- So it is the place where the script is complained of. -/
lemma Faulted.eq_of_exception {s : Checker} (hs : s.Ready) {seen before : List Token}
    {x y y' x' : Token} (hfault : Faulted s seen x y) (hview : before ++ [y'] ++ [x'] <+: s.view)
    (h : Postponed before y' x') : seen = before ++ [y'] ∧ x = x' := by
  obtain ⟨hviable, hnot⟩ := viable_of_exception hs hview h
  have hsame := viable_unique hfault.view hview hfault.viable
    (not_viable_of_complains hfault.complains) hviable hnot
  obtain ⟨hseen, hx⟩ := List.append_inj' hsame rfl
  exact ⟨hseen, List.singleton_inj.1 hx⟩

/-- The token that is blamed first, and how far the tokens are viable.

**Proof sketch.** If the tokens in front of `x` end in one of the exceptions then the last of them
is blamed, and otherwise `x` is. No exception stands elsewhere, because it would be another place up
to which the tokens are viable. -/
lemma Faulted.exists_blamed {s : Checker} (hs : s.Ready) {seen : List Token} {x y : Token}
    (hfault : Faulted s seen x y) :
    ∃ before token after, s.view = before ++ token :: after ∧
      FirstAt (finish s).reports token ∧ Viable before ∧
      (Viable (before ++ [token]) ↔
        ∃ next rest, after = next :: rest ∧ Postponed before token next) ∧
      (∀ next rest, after = next :: rest → ¬ Viable (before ++ [token, next])) ∧
      ∀ b y x, b ++ [y, x] <+: s.view → Postponed b y x → before = b := by
  have hnot := not_viable_of_complains hfault.complains
  have hexception : ∀ b token next, b ++ [token, next] <+: s.view →
      Postponed b token next → seen = b ++ [token] ∧ x = next := by
    intro b token next hprefix hpostponed
    rw [List.append_cons] at hprefix
    exact hfault.eq_of_exception hs hprefix hpostponed
  obtain ⟨after, hstream⟩ := hfault.view
  by_cases hlate : ∃ b token, seen = b ++ [token] ∧ Postponed b token x
  · obtain ⟨before, token, rfl, hpostponed⟩ := hlate
    refine ⟨before, token, x :: after, by simp [← hstream], ?_, ?_, ?_, ?_, ?_⟩
    · have hahead := Checker.prefix_ahead_of_prefix_view hfault.view
      have hkind : ∀ t ∈ before, t.kind ≠ .eof := fun t ht =>
        hs.kind_ne_eof t (hahead.subset (List.mem_append_left _ ht))
      exact complains_of_postponed hpostponed hkind s hs hfault.view
    · exact hfault.viable.of_prefix (List.prefix_append before [token])
    · exact ⟨fun _ => ⟨x, after, rfl, hpostponed⟩, fun _ => hfault.viable⟩
    · rintro next rest ⟨⟩
      simpa using hnot
    · intro b y x hprefix hpostponed
      exact (List.append_inj' (hexception b y x hprefix hpostponed).1 rfl).1
  · obtain rfl : y = x := by
      cases hfault.blames with
      | at_fault => rfl
      | late h => exact absurd ⟨_, _, rfl, h⟩ hlate
    refine ⟨seen, y, after, by simp [← hstream], hfault.complains s hs hfault.view, hfault.viable,
      ⟨fun h => absurd h hnot, ?_⟩, ?_, ?_⟩
    · rintro ⟨next, rest, rfl, hpostponed⟩
      obtain ⟨hseen, -⟩ := hexception seen y next ⟨rest, by simp [← hstream]⟩ hpostponed
      exact absurd (congrArg List.length hseen) (by simp)
    · rintro next rest rfl hviable
      exact hnot (hviable.of_prefix ⟨[next], by simp⟩)
    · intro b token next hprefix hpostponed
      obtain ⟨rfl, rfl⟩ := hexception b token next hprefix hpostponed
      exact absurd ⟨b, token, rfl, hpostponed⟩ hlate

/-- **The first failed expectation is the earliest possible.** Let `d` be the first diagnostic that
the check of a token stream makes and whose message begins with "Expected". It is about a token such
that the tokens in front of it are viable. With this token they are not, except where it is a key of
a cadence without an equals sign behind it, or the opening bracket of an empty list of source files;
and there they are not with the next token. Wherever one of the exceptions stands in the stream, `d`
is about it.

**Proof sketch.** Diagnostics made earlier change nothing, so `d` is the first one without them,
too. It is a failed expectation, so the script is complained of in time (`outcome_script`), and `d`
is about the token that is blamed first. -/
theorem first_expectation_earliest (t : TokenStream) (earlier pre post : List Diagnostic)
    (d : Diagnostic)
    (hreported : (finish (.start t.tokens t.eof earlier)).reported = earlier ++ pre ++ d :: post)
    (hpre : ∀ e ∈ pre, ¬ "Expected".toList <+: e.message.toList)
    (hd : "Expected".toList <+: d.message.toList) :
    ∃ before token after, t.tokens ++ [t.eof] = before ++ token :: after ∧
      d.range = token.range ∧ Viable before ∧
      (Viable (before ++ [token]) ↔
        ∃ next rest, after = next :: rest ∧ Postponed before token next) ∧
      (∀ next rest, after = next :: rest → ¬ Viable (before ++ [token, next])) ∧
      ∀ b y x, b ++ [y, x] <+: t.tokens ++ [t.eof] → Postponed b y x → before = b := by
  have hready := Checker.ready_start t.kind_ne_eof t.eof_kind
  have hnew : (finish (.start t.tokens t.eof [])).reported = pre ++ d :: post := by
    rw [reported_finish_start, List.append_assoc] at hreported
    exact List.append_cancel_left hreported
  rcases outcome_script hready with htidy | ⟨seen, x, y, hfault⟩
  · have hremark := htidy d (List.mem_reverse.1 (by rw [← Checker.reported, hnew]; simp))
    exact absurd hd (Finding.isRemark_message hremark)
  · obtain ⟨before, token, after, hstream, hfirst, hrest⟩ := hfault.exists_blamed hready
    exact ⟨before, token, after, hstream, range_of_firstAt hfirst hnew hpre hd, hrest⟩

/-- An artifact of no source files, broken off: `create A from julietArtifactSourceFiles []`. -/
def emptySources : TokenStream where
  tokens := [⟨.identifier, "create", ⟨⟨0, 0⟩, ⟨0, 6⟩⟩⟩, ⟨.identifier, "A", ⟨⟨0, 7⟩, ⟨0, 8⟩⟩⟩,
    ⟨.identifier, "from", ⟨⟨0, 9⟩, ⟨0, 13⟩⟩⟩,
    ⟨.identifier, "julietArtifactSourceFiles", ⟨⟨0, 14⟩, ⟨0, 39⟩⟩⟩,
    ⟨.mark .openBracket, "[", ⟨⟨0, 40⟩, ⟨0, 41⟩⟩⟩, ⟨.mark .closeBracket, "]", ⟨⟨0, 41⟩, ⟨0, 42⟩⟩⟩]
  eof := .eofAt ⟨0, 42⟩
  eof_kind := rfl
  kind_ne_eof := by decide

/-- The opening bracket is blamed first, then the end. -/
lemma reported_emptySources :
    (finish (.start emptySources.tokens emptySources.eof [])).reported =
      [⟨.expected "at least one file path in julietArtifactSourceFiles list",
        ⟨⟨0, 40⟩, ⟨0, 41⟩⟩⟩, ⟨.expected "';' after create statement", ⟨⟨0, 42⟩, ⟨0, 42⟩⟩⟩] := by
  rw [finish, script_apply, if_neg (by decide), if_pos (by decide), script_apply,
    if_pos (by decide)]
  decide

/-- The tokens up to the opening bracket are viable, and those up to the closing one are not. -/
theorem first_expectation_emptySources :
    Viable (emptySources.tokens.take 5) ∧ ¬ Viable (emptySources.tokens.take 6) := by
  obtain ⟨before, token, after, hstream, -, -, hviable, hnot, hexception⟩ :=
    first_expectation_earliest emptySources [] [] _ _ reported_emptySources
      (List.forall_mem_nil _) (by decide)
  let opening : Punct .openBracket := ⟨⟨.mark .openBracket, "[", ⟨⟨0, 40⟩, ⟨0, 41⟩⟩⟩, by decide⟩
  let closing : Punct .closeBracket := ⟨⟨.mark .closeBracket, "]", ⟨⟨0, 41⟩, ⟨0, 42⟩⟩⟩, by decide⟩
  have hpostponed : Postponed (emptySources.tokens.take 4) opening.token closing.token :=
    .behind .nil (.bracket ⟨_, rfl⟩ ⟨_, List.mem_singleton.2 rfl⟩ ⟨_, rfl⟩ ⟨_, rfl⟩ opening closing)
  obtain rfl := hexception _ _ _ ⟨[emptySources.eof], rfl⟩ hpostponed
  have hsplit : emptySources.tokens.take 4 ++ [opening.token, closing.token, emptySources.eof] =
      emptySources.tokens.take 4 ++ token :: after := hstream
  obtain ⟨rfl, rfl⟩ := List.cons.inj (List.append_cancel_left hsplit)
  exact ⟨hviable.2 ⟨_, _, rfl, hpostponed⟩, hnot _ _ rfl⟩

end Check

end WorkflowLint
