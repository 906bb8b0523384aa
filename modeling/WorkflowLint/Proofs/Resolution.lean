import WorkflowLint.Proofs.Lookup
import WorkflowLint.Proofs.Progress

/-!
# Names are resolved in one pass

The tables of a check hold the first definition of every name, in the order of the tokens, and a
reference is resolved against what stands in front of it. This holds of malformed scripts, too:
whatever the recovery does, a name is entered only if it directly follows its keyword.

An artifact is the exception to the order of the tokens. It is entered at the end of its statement,
so the references in the statement do not see it, although its name stands in front of them.

## Design

A token is told from its equals by its place in the stream. The invariant therefore carries the
places of the entries along, next to the definitions of the check (`Resolved`).

## Main definitions

* `WorkflowLint.NamesAt` — a name stands at a place, directly behind its keyword.
* `WorkflowLint.Check.Visits` — the states between the rounds of a script.
* `WorkflowLint.Check.WithinOwn` — a place inside the `create` statement of an artifact.
* `WorkflowLint.Check.Resolved` — what the places of the entries say about tables and reports.

## Main results

* `WorkflowLint.Check.Resolved.consults`, `WorkflowLint.Check.Resolved.define` — the two steps.
* `WorkflowLint.Check.Visits.resolved` — what a whole run keeps.
* `WorkflowLint.Check.names_resolved_in_order` — first definitions win, and only earlier ones count.
-/

set_option autoImplicit false

namespace WorkflowLint

/-! ## Places -/

/-- The token `t` stands at place `i` and names something of the given kind: it is an identifier
directly behind the keyword. -/
structure NamesAt (ts : List Token) (kind : SymbolKind) (i : Nat) (t : Token) : Prop where
  token : ts[i]? = some t
  identifier : t.kind = .identifier
  keyword : ∃ j w, i = j + 1 ∧ ts[j]? = some w ∧ w.isWord kind.keyword = true

namespace Checker

variable {s : Checker} {ts : List Token}

lemma getElem?_past (hts : s.past.reverse ++ s.ahead = ts) {t : Token} (ht : t ∈ s.past) :
    ∃ i, i < s.index ∧ ts[i]? = some t := by
  obtain ⟨i, hi, hget⟩ := List.getElem_of_mem (List.mem_reverse.2 ht)
  have hlt : i < s.index := by simpa [index] using hi
  refine ⟨i, hlt, ?_⟩
  rw [← hts, List.getElem?_append_left hi, List.getElem?_eq_getElem hi, hget]

lemma getElem?_ahead (hts : s.past.reverse ++ s.ahead = ts) (n : Nat) :
    ts[s.index + n]? = s.ahead[n]? := by
  rw [← hts, index, ← List.length_reverse, List.getElem?_append_right (Nat.le_add_right _ _),
    Nat.add_sub_cancel_left]

/-- A keyword at hand and a name behind it are the next two tokens. -/
lemma exists_ahead_eq {word : String} (hs : s.eof.kind = .eof) (hword : s.isAtWord word = true)
    (hname : s.skip.isAt [.identifier] = true) :
    ∃ w name rest, s.ahead = w :: name :: rest ∧ w.isWord word = true ∧ name.kind = .identifier ∧
      s.skip.current = name ∧ s.skip.skip.index = s.index + 2 := by
  obtain ⟨past, ahead, eof, reports, definitions, seen⟩ := s
  replace hs : eof.kind = .eof := hs
  rcases ahead with _ | ⟨w, _ | ⟨name, rest⟩⟩
  · simp [isAtWord, current, Token.isWord, hs] at hword
  · simp [isAt, current, skip, hs] at hname
  · exact ⟨w, name, rest, rfl, hword, by simpa [isAt, current, skip] using hname, rfl, rfl⟩

lemma isDefined_of_mem {d : Definition} (hd : d ∈ s.definitions) :
    s.isDefined d.kind d.token.text = true :=
  List.any_eq_true.2 ⟨d, hd, by simp⟩

end Checker

namespace Check

open Checker

/-! ## The rounds of a script -/

/-- The states between the rounds of a script that starts with `start`. -/
inductive Visits (start : Checker) : Checker → Prop
  | start : Visits start start
  | next {s : Checker} (h : Visits start s) (hgo : s.atEnd = false) : Visits start (scriptItem s).2

/-- Place `i` is inside the `create` statement whose artifact is named at place `j`. -/
def WithinOwn (start : Checker) (j i : Nat) : Prop :=
  ∃ s, Visits start s ∧ s.isAtWord StatementKind.create.word = true ∧ j = s.index + 1 ∧
    s.index ≤ i ∧ i < (scriptItem s).2.index

/-- A script ends in a state that it visits. -/
lemma visits_of_repeats {start s s' : Checker} {a b : Unit} (hs : Visits start s)
    (h : Repeats scriptRound a s b s') : Visits start s' := by
  induction h with
  | @stop a s hstop =>
    rw [scriptRound, get_bind_apply, ite_apply] at *
    split at hstop
    · rename_i hend
      rw [if_pos hend]
      exact hs
    · exact Bool.noConfusion hstop
  | @next a b s s' hgo _ ih =>
    apply ih
    rw [scriptRound, get_bind_apply, ite_apply] at *
    split at hgo
    · exact Bool.noConfusion hgo
    · rename_i hopen
      rw [if_neg hopen]
      exact .next hs (by simpa using hopen)

lemma visits_script {start : Checker} (hs : start.eof.kind = .eof) :
    Visits start (script start).2 :=
  visits_of_repeats .start (Loop.statements.repeats () hs)

lemma Visits.eof_kind {start s : Checker} (h : Visits start s) (hs : start.eof.kind = .eof) :
    s.eof.kind = .eof := by
  induction h with
  | start => exact hs
  | next _ _ ih => exact (round_scriptItem ih).grows.eof ▸ ih

/-! ## The invariant -/

/-- What may have been reported when `n` tokens have been passed and the entries are those given,
each with the place of its name. -/
inductive Justified (ts : List Token) (start : Checker) (n : Nat)
    (entries : List (Nat × Definition)) : Diagnostic → Prop
  | isLocal {f : Finding} (h : f.isLocal = true) (r : Range) : Justified ts start n entries ⟨f, r⟩
  | duplicate {kind : SymbolKind} {j : Nat} {t : Token} {e : Nat × Definition}
      (hname : NamesAt ts kind j t) (he : e ∈ entries) (hkind : e.2.kind = kind)
      (htext : e.2.token.text = t.text) (hlt : e.1 < j) :
      Justified ts start n entries ⟨.duplicateDefinition kind t.text, t.range⟩
  | unresolved {kind : SymbolKind} (site : ReferenceSite) {i : Nat} {t : Token}
      (htoken : ts[i]? = some t) (hidentifier : t.kind = .identifier) (hlt : i < n)
      (hfree : ∀ e ∈ entries, e.2.kind = kind → e.2.token.text = t.text → e.1 < i →
        kind = .artifact ∧ WithinOwn start e.1 i) :
      Justified ts start n entries ⟨.unresolved kind t.text site, t.range⟩

/-- Over the tokens `ts`, the check has come from `start` to `s` and has met the entries given, the
latest first, each with the place of its name. -/
structure Resolved (ts : List Token) (start s : Checker) (entries : List (Nat × Definition)) :
    Prop where
  tokens : s.past.reverse ++ s.ahead = ts
  definitions : s.definitions = entries.map Prod.snd
  decreasing : entries.Pairwise fun e f => f.1 < e.1
  names : ∀ e ∈ entries, NamesAt ts e.2.kind e.1 e.2.token
  passed : ∀ e ∈ entries, e.1 < s.index
  reports : ∃ new, s.reports = new ++ start.reports ∧
    ∀ d ∈ new, Justified ts start s.index entries d

variable {ts : List Token} {start s s' : Checker} {n n' : Nat}
  {entries : List (Nat × Definition)} {d : Diagnostic}

/-- Passing tokens takes nothing back. -/
lemma Justified.mono (h : Justified ts start n entries d) (hn : n ≤ n') :
    Justified ts start n' entries d := by
  cases h with
  | isLocal hf r => exact .isLocal hf r
  | duplicate hname he hkind htext hlt => exact .duplicate hname he hkind htext hlt
  | unresolved site htoken hidentifier hlt hfree =>
    exact .unresolved site htoken hidentifier (Nat.lt_of_lt_of_le hlt hn) hfree

/-- Neither does a new entry, if no reference was met behind it except in its own statement. -/
lemma Justified.cons {e : Nat × Definition} (h : Justified ts start n entries d)
    (hown : ∀ i, e.1 < i → i < n → e.2.kind = .artifact ∧ WithinOwn start e.1 i) :
    Justified ts start n (e :: entries) d := by
  cases h with
  | isLocal hf r => exact .isLocal hf r
  | duplicate hname he hkind htext hlt =>
    exact .duplicate hname (List.mem_cons_of_mem _ he) hkind htext hlt
  | @unresolved kind site i t htoken hidentifier hlt hfree =>
    refine .unresolved site htoken hidentifier hlt ?_
    intro f hf hkind htext hbefore
    rcases List.mem_cons.1 hf with rfl | hf
    · exact hkind ▸ hown i hbefore hlt
    · exact hfree f hf hkind htext hbefore

namespace Resolved

/-- **Looking names up** keeps the invariant: no entry has a name that is reported. -/
lemma consults (h : Resolved ts start s entries) (hs : s.Consults s') :
    Resolved ts start s' entries := by
  have htokens : s'.past.reverse ++ s'.ahead = ts := hs.grows.tokens.trans h.tokens
  obtain ⟨new, hnew, hjustified⟩ := h.reports
  obtain ⟨new', hnew', hfounded⟩ := hs.reports
  refine ⟨htokens, hs.definitions.trans h.definitions, h.decreasing, h.names,
    fun e he => Nat.lt_of_lt_of_le (h.passed e he) hs.grows.index_le, new' ++ new, ?_, ?_⟩
  · rw [hnew', hnew, List.append_assoc]
  intro d hd
  rcases List.mem_append.1 hd with hd | hd
  · cases hfounded d hd with
    | isLocal hf r => exact .isLocal hf r
    | @unresolved kind site t hmem hkind hfree =>
      obtain ⟨i, hi, hget⟩ := getElem?_past htokens hmem
      refine .unresolved site hget hkind hi ?_
      rintro e he rfl htext -
      have hdefined : e.2 ∈ s.definitions := h.definitions ▸ List.mem_map_of_mem he
      rw [← htext, isDefined_of_mem hdefined] at hfree
      exact Bool.noConfusion hfree
  · exact (hjustified d hd).mono hs.grows.index_le

/-- **Entering a name** keeps the invariant, if the name stands behind all entries, and no reference
was met behind it except in its own statement. -/
lemma define {kind : SymbolKind} {j : Nat} {name : Token} (h : Resolved ts start s entries)
    (hname : NamesAt ts kind j name) (hlast : ∀ e ∈ entries, e.1 < j) (hpassed : j < s.index)
    (hown : ∀ i, j < i → i < s.index → kind = .artifact ∧ WithinOwn start j i) :
    ∃ entries', Resolved ts start (Check.define kind name s).2 entries' := by
  obtain ⟨new, hnew, hjustified⟩ := h.reports
  rw [define_apply]
  split
  · rename_i hdefined
    obtain ⟨d, hd, hkind⟩ := List.any_eq_true.1 hdefined
    obtain ⟨e, he, rfl⟩ := List.mem_map.1 (h.definitions ▸ hd)
    rw [Bool.and_eq_true, beq_iff_eq, beq_iff_eq] at hkind
    refine ⟨entries, h.tokens, h.definitions, h.decreasing, h.names, h.passed,
      ⟨.duplicateDefinition kind name.text, name.range⟩ :: new, ?_, ?_⟩
    · rw [report_apply, hnew, List.cons_append]
    · intro d hd
      rcases List.mem_cons.1 hd with rfl | hd
      · exact .duplicate hname he hkind.1 hkind.2 (hlast e he)
      · exact hjustified d hd
  · refine ⟨(j, ⟨kind, name⟩) :: entries, h.tokens, ?_, ?_, ?_, ?_, new, hnew, ?_⟩
    · rw [List.map_cons, h.definitions]
    · exact List.pairwise_cons.2 ⟨hlast, h.decreasing⟩
    · exact List.forall_mem_cons.2 ⟨hname, h.names⟩
    · exact List.forall_mem_cons.2 ⟨hpassed, h.passed⟩
    · exact fun d hd => (hjustified d hd).cons hown

/-- **A round over a script** keeps the invariant.

**Proof sketch.** The name of a statement is the token behind the keyword at hand, so it stands
behind all entries. A policy, rubric or cadence is entered when no further token has been passed; an
artifact is entered later, but then whatever was passed belongs to its own statement. -/
lemma scriptItem (h : Resolved ts start s entries) (hs : s.eof.kind = .eof)
    (hvisits : Visits start s) : ∃ entries', Resolved ts start (Check.scriptItem s).2 entries' := by
  cases round_scriptItem hs with
  | consults hround => exact ⟨entries, h.consults hround⟩
  | @enters kind m s' hword hname hbefore hearly hafter =>
    obtain ⟨w, name, rest, hahead, hw, hidentifier, hcurrent, hindex⟩ :=
      exists_ahead_eq hs hword hname
    rw [hcurrent] at hafter
    have hm : Resolved ts start m entries :=
      h.consults (((Consults.skip s).trans (.skip s.skip)).trans hbefore)
    have hnames : NamesAt ts kind (s.index + 1) name := by
      refine ⟨?_, hidentifier, s.index, w, rfl, ?_, hw⟩
      · rw [getElem?_ahead h.tokens, hahead]
        rfl
      · rw [← Nat.add_zero s.index, getElem?_ahead h.tokens, hahead]
        rfl
    have hpassed : s.index + 2 ≤ m.index := hindex ▸ hbefore.grows.index_le
    have hend : m.index ≤ (Check.scriptItem s).2.index :=
      (grows_define kind name m).index_le.trans hafter.grows.index_le
    obtain ⟨entries', hentries'⟩ := hm.define hnames
      (fun e he => Nat.lt_succ_of_lt (h.passed e he)) (by omega) fun i hi hlt => by
        by_cases hkind : kind = .artifact
        · subst hkind
          exact ⟨rfl, s, hvisits, hword, rfl, by omega, by omega⟩
        · rw [hearly hkind, hindex] at hlt
          omega
    exact ⟨entries', hentries'.consults hafter⟩

end Resolved

/-- **The invariant holds between all rounds.** -/
lemma Visits.resolved {t : TokenStream} {earlier : List Diagnostic}
    (h : Visits (.start t.tokens t.eof earlier) s) :
    ∃ entries, Resolved t.tokens (.start t.tokens t.eof earlier) s entries := by
  induction h with
  | start => exact ⟨[], rfl, rfl, .nil, by simp, by simp, [], rfl, by simp⟩
  | next hvisits _ ih =>
    obtain ⟨entries, hentries⟩ := ih
    exact hentries.scriptItem (hvisits.eof_kind t.eof_kind) hvisits

/-! ## The main result -/

/-- The entries of one space, in the order in which they were met. -/
def entriesOf (kind : SymbolKind) (entries : List (Nat × Definition)) : List (Nat × Token) :=
  (entries.reverse.filter fun e => e.2.kind == kind).map fun e => (e.1, e.2.token)

lemma mem_entriesOf {kind : SymbolKind} {e : Nat × Token} :
    e ∈ entriesOf kind entries ↔ (e.1, ⟨kind, e.2⟩) ∈ entries := by
  simp only [entriesOf, List.mem_map, List.mem_filter, List.mem_reverse, beq_iff_eq]
  constructor
  · rintro ⟨⟨i, kind', t⟩, ⟨hmem, rfl⟩, rfl⟩
    exact hmem
  · intro hmem
    exact ⟨_, ⟨hmem, rfl⟩, rfl⟩

lemma Resolved.table_eq (h : Resolved ts start s entries) (kind : SymbolKind) :
    s.table kind = (entriesOf kind entries).map Prod.snd := by
  rw [Checker.table, h.definitions, ← List.map_reverse, List.filter_map, List.map_map, entriesOf,
    List.map_map]
  rfl

lemma Resolved.increasing (h : Resolved ts start s entries) (kind : SymbolKind) :
    (entriesOf kind entries).Pairwise fun e f => e.1 < f.1 :=
  List.pairwise_map.2 ((List.pairwise_reverse.2 h.decreasing).filter _)

/-- **Names are resolved in one pass, and the first definition wins.** When everything in a token
stream has been checked, well-formed or not, what has been reported on top of what was handed in and
the tables go together as follows. The entries of a table are identifiers at increasing places, with
different texts, each directly behind the keyword of its kind.

* A name that is reported as a repetition stands directly behind the same keyword, and the entry
  with its text stands in front of it.
* A reference that is reported as unknown has no entry of its text in front of it, in the final
  table of its kind. The only exception is an artifact whose own `create` statement the reference is
  part of.

**Proof sketch.** A round over a script enters one name at most, the token behind its keyword
(`round_scriptItem`). Entries are therefore met in the order of their places, and a reference that
is looked up between two rounds stands in front of all names that are entered later. -/
theorem names_resolved_in_order (t : TokenStream) (earlier : List Diagnostic) :
    let start := Checker.start t.tokens t.eof earlier
    let final := finish start
    ∃ new, final.reported = earlier ++ new ∧ ∀ kind, ∃ entries : List (Nat × Token),
      final.table kind = entries.map Prod.snd ∧ (entries.map fun e => e.2.text).Nodup ∧
      entries.Pairwise (fun e f => e.1 < f.1) ∧ (∀ e ∈ entries, NamesAt t.tokens kind e.1 e.2) ∧
      (∀ d ∈ new, ∀ name, d.finding = .duplicateDefinition kind name →
        ∃ j token, NamesAt t.tokens kind j token ∧ token.text = name ∧ token.range = d.range ∧
          ∃ e ∈ entries, e.2.text = name ∧ e.1 < j) ∧
      ∀ d ∈ new, ∀ name site, d.finding = .unresolved kind name site →
        ∃ i token, t.tokens[i]? = some token ∧ token.kind = .identifier ∧ token.text = name ∧
          token.range = d.range ∧ ∀ e ∈ entries, e.2.text = name → e.1 < i →
            kind = .artifact ∧ WithinOwn start e.1 i := by
  intro start final
  have hvisits : Visits start final := visits_script t.eof_kind
  obtain ⟨entries, h⟩ := hvisits.resolved
  have hdistinct : final.Distinct := (grows_script start).distinct .nil
  obtain ⟨new, hnew, hjustified⟩ := h.reports
  refine ⟨new.reverse, ?_, fun kind => ⟨entriesOf kind entries, h.table_eq kind, ?_,
    h.increasing kind, fun e he => h.names _ (mem_entriesOf.1 he), ?_, ?_⟩⟩
  · rw [Checker.reported, hnew, List.reverse_append]
    exact congrArg (· ++ new.reverse) (List.reverse_reverse earlier)
  · have hnodup := hdistinct.nodup_table kind
    rwa [h.table_eq kind, List.map_map] at hnodup
  · rintro ⟨f, r⟩ hd name rfl
    cases hjustified _ (List.mem_reverse.1 hd) with
    | isLocal hf => exact Bool.noConfusion hf
    | @duplicate _ j token e hname he hkind htext hlt =>
      subst hkind
      exact ⟨j, token, hname, rfl, rfl, (e.1, e.2.token), mem_entriesOf.2 he, htext, hlt⟩
  · rintro ⟨f, r⟩ hd name site rfl
    cases hjustified _ (List.mem_reverse.1 hd) with
    | isLocal hf => exact Bool.noConfusion hf
    | @unresolved _ _ i token htoken hidentifier _ hfree =>
      refine ⟨i, token, htoken, hidentifier, rfl, rfl, fun e he htext hlt => ?_⟩
      exact hfree _ (mem_entriesOf.1 he) rfl htext hlt

end Check

end WorkflowLint
