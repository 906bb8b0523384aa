import WorkflowLint.Proofs.Progress

/-!
# Checks that complain in time

A check that reads its tokens from left to right, one at a time, should complain as soon as what it
has read can no longer be completed. Two things are needed for that, and both are about other
scripts than the one at hand: what was read before the complaint can be completed so that nothing is
complained of, and with the token complained of it cannot.

## Design

`Check.Takes m a ts` says that `m` passes the tokens `ts` wherever they stand, with the answer `a`
and without a failed expectation. `Check.Complains m us y` says that `m` fails an expectation
wherever `us` stands, and blames the token `y` first. The outcome of `m` in a state is one or the
other: it takes some of the tokens ahead; or it complains of some, the last of which is at fault,
and could take those in front of it with others behind.

A check may notice a token `x` and blame the one in front of it. Where it does so is a parameter
`E : Late`, where `E seen y x` stands for: behind `seen`, the token `y` is blamed because of `x`.

`Check.Guided` adds a condition under which all this holds. Without it, a check is only known to
move forward; that is all there is to say of the ways behind a failed expectation.

## Main definitions

* `WorkflowLint.Checker.Ready` — a state of a script in which no expectation has failed.
* `WorkflowLint.Check.Takes`, `WorkflowLint.Check.Complains` — what a check does wherever certain
  tokens stand.
* `WorkflowLint.Check.Outcome`, `WorkflowLint.Check.Guided` — a check complains in time.

## Main results

* `WorkflowLint.Check.Outcome.bind`, `WorkflowLint.Check.Guided.bind` — sequencing.
* `WorkflowLint.Check.Outcome.of_current` — checks that are chosen by the token at hand.
* `WorkflowLint.Check.takes_of_run` — what the simulation of spelled scripts gives.
-/

set_option autoImplicit false

namespace WorkflowLint

open Grammar

/-! ## States -/

namespace Checker

/-- There are only remarks so far. -/
def Tidy (s : Checker) : Prop := ∀ d ∈ s.reports, d.finding.isRemark = true

/-- The tokens ahead and the end. -/
def view (s : Checker) : List Token := s.ahead ++ [s.eof]

/-- A state of a script, with its end in last place only, in which no expectation has failed. -/
structure Ready (s : Checker) : Prop where
  eof_kind : s.eof.kind = .eof
  kind_ne_eof : ∀ t ∈ s.ahead, t.kind ≠ .eof
  tidy : s.Tidy

variable {s s' : Checker}

lemma Tidy.clean (h : s.Tidy) : s.Clean := by
  intro d hd what hwhat
  have hremark := h d hd
  rw [hwhat] at hremark
  exact Bool.noConfusion hremark

lemma Tidy.of_suffix (h : s'.Tidy) (hs : s.reports <:+ s'.reports) : s.Tidy :=
  fun d hd => h d (hs.subset hd)

/-- The first token of the view is the one at hand. -/
lemma view_eq (s : Checker) : ∃ rest, s.view = s.current :: rest := by
  unfold view current
  cases s.ahead with
  | nil => exact ⟨[], rfl⟩
  | cons t ts => exact ⟨ts ++ [s.eof], rfl⟩

lemma singleton_prefix_view (s : Checker) : [s.current] <+: s.view := by
  obtain ⟨rest, hrest⟩ := s.view_eq
  rw [hrest]
  exact List.cons_prefix_cons.2 ⟨rfl, List.nil_prefix⟩

lemma current_eq_of_prefix {t : Token} {us : List Token} (h : t :: us <+: s.view) :
    s.current = t := by
  obtain ⟨rest, hrest⟩ := s.view_eq
  rw [hrest, List.cons_prefix_cons] at h
  exact h.1.symm

/-- All tokens of a part of the view but the last are ahead. -/
lemma prefix_ahead_of_prefix_view {us : List Token} {x : Token} (h : us ++ [x] <+: s.view) :
    us <+: s.ahead := by
  rw [view, List.prefix_concat_iff] at h
  rcases h with h | h
  · exact (List.append_inj' h rfl).1 ▸ List.prefix_rfl
  · exact (List.prefix_append us [x]).trans h

/-- A token ahead that is at hand. -/
lemma current_of_ahead {t : Token} {ts : List Token} (h : s.ahead = t :: ts) : s.current = t := by
  rw [current, h]
  rfl

/-- A state that is not at its end faces its first token. -/
lemma Ready.ahead_eq (h : s.Ready) (hkind : s.current.kind ≠ .eof) :
    s.ahead = s.current :: s.skip.ahead :=
  Check.ahead_eq_of_kind_ne (by rwa [h.eof_kind])

lemma Ready.skip (h : s.Ready) : s.skip.Ready := by
  obtain ⟨heof, hreports, ts, hts⟩ := s.skip_forward
  refine ⟨by rw [heof, h.eof_kind], fun t ht => h.kind_ne_eof t ?_, ?_⟩
  · rw [hts]
    exact List.mem_append_right ts ht
  · rw [Tidy, hreports]
    exact h.tidy

/-- In front of the end, and only there, nothing is ahead. -/
lemma Ready.ahead_eq_nil (h : s.Ready) (hkind : s.current.kind = .eof) : s.ahead = [] := by
  cases hs : s.ahead with
  | nil => rfl
  | cons t ts =>
    rw [current_of_ahead hs] at hkind
    exact absurd hkind (h.kind_ne_eof t (by simp [hs]))

/-- A state in front of some tokens. -/
def facing (ts : List Token) : Checker := start ts (.eofAt .origin) []

lemma ready_start {ts : List Token} {eof : Token} (hts : ∀ t ∈ ts, t.kind ≠ .eof)
    (heof : eof.kind = .eof) : (start ts eof []).Ready :=
  ⟨heof, hts, by simp [Tidy, start]⟩

lemma ready_facing {ts : List Token} (h : ∀ t ∈ ts, t.kind ≠ .eof) : (facing ts).Ready :=
  ready_start h rfl

end Checker

/-! ## The first complaint -/

/-- Among these reports, the latest first, the first that is no remark is a failed expectation, and
it is about the token `y`. -/
def FirstAt (reports : List Diagnostic) (y : Token) : Prop :=
  ∃ later d earlier, reports = later ++ d :: earlier ∧ (∃ what, d.finding = .expected what) ∧
    d.range = y.range ∧ ∀ e ∈ earlier, e.finding.isRemark = true

lemma FirstAt.of_suffix {reports reports' : List Diagnostic} {y : Token} (h : FirstAt reports y)
    (hs : reports <:+ reports') : FirstAt reports' y := by
  obtain ⟨later, d, earlier, rfl, hd⟩ := h
  obtain ⟨new, rfl⟩ := hs
  exact ⟨new ++ later, d, earlier, by rw [List.append_assoc], hd⟩

lemma FirstAt.not_tidy {s : Checker} {y : Token} (h : FirstAt s.reports y) : ¬ s.Tidy := by
  intro htidy
  obtain ⟨later, d, earlier, hreports, ⟨what, hwhat⟩, -⟩ := h
  have hremark := htidy d (by simp [hreports])
  rw [hwhat] at hremark
  exact Bool.noConfusion hremark

namespace Check

variable {α β : Type}

/-! ## Taking tokens -/

/-- Wherever the tokens `ts` are ahead, `m` passes exactly these, with the answer `a` and without a
failed expectation. -/
def Takes (m : Check α) (a : α) (ts : List Token) : Prop :=
  (∀ t ∈ ts, t.kind ≠ .eof) ∧ ∀ (s : Checker) (rest : List Token), s.Ready →
    s.ahead = ts ++ rest →
      (m s).1 = a ∧ (m s).2.Ready ∧ (m s).2.ahead = rest ∧ (m s).2.eof = s.eof

/-- Wherever the tokens `us` stand, `m` fails an expectation and blames `y` first. -/
def Complains (m : Check α) (us : List Token) (y : Token) : Prop :=
  ∀ s : Checker, s.Ready → us <+: s.view → FirstAt (m s).2.reports y

lemma Takes.view {m : Check α} {a : α} {ts rest : List Token} {s : Checker} (h : Takes m a ts)
    (hs : s.Ready) (hahead : s.ahead = ts ++ rest) : s.view = ts ++ (m s).2.view := by
  obtain ⟨-, -, hrest, heof⟩ := h.2 s rest hs hahead
  rw [Checker.view, Checker.view, hahead, hrest, heof, List.append_assoc]

/-- What is taken is what is read if no expectation fails. -/
lemma Takes.reads {m : Check α} {a : α} {ts : List Token} {P : α → List Token → Prop}
    (h : Takes m a ts) (hm : Reads m P) : P a ts := by
  have hready := Checker.ready_facing h.1
  obtain ⟨hanswer, hstate, hrest, -⟩ := h.2 (.facing ts) [] hready (by simp [Checker.facing,
    Checker.start])
  obtain ⟨-, -, us, hus, hP⟩ := hm (.facing ts) hready.eof_kind
  rw [hrest, List.append_nil] at hus
  have hts : ts = us := hus
  rw [hts, ← hanswer]
  exact hP hstate.tidy.clean

lemma Takes.bind {m : Check α} {f : α → Check β} {a : α} {b : β} {ts us : List Token}
    (hm : Takes m a ts) (hf : Takes (f a) b us) : Takes (m >>= f) b (ts ++ us) := by
  refine ⟨List.forall_mem_append.2 ⟨hm.1, hf.1⟩, fun s rest hs hahead => ?_⟩
  rw [List.append_assoc] at hahead
  obtain ⟨hanswer, hready, hrest, heof⟩ := hm.2 s (us ++ rest) hs hahead
  obtain ⟨hanswer', hready', hrest', heof'⟩ := hf.2 _ rest hready hrest
  rw [bind_apply, hanswer]
  exact ⟨hanswer', hready', hrest', heof'.trans heof⟩

/-- A check that runs alike in front of `t` takes the same. -/
lemma Takes.of_current {m n : Check α} {a : α} {t : Token} {ts : List Token}
    (h : Takes m a (t :: ts)) (hrun : ∀ s : Checker, s.Ready → s.current = t → n s = m s) :
    Takes n a (t :: ts) := by
  refine ⟨h.1, fun s rest hs hahead => ?_⟩
  rw [hrun s hs (Checker.current_of_ahead hahead)]
  exact h.2 s rest hs hahead

/-- Complaints are not withdrawn. -/
lemma Complains.bind {m : Check α} {f : α → Check β} {us : List Token} {y : Token}
    (h : Complains m us y) (hm : Forward m) (hf : ∀ a, Forward (f a)) :
    Complains (m >>= f) us y := by
  intro s hs hus
  exact (h s hs hus).of_suffix (hf _ _ (hm.eof_kind hs.eof_kind)).2.1

/-- What is complained of behind tokens that are taken is complained of with them in front. -/
lemma Takes.complains {m : Check α} {f : α → Check β} {a : α} {ts us : List Token} {x y : Token}
    (hm : Takes m a ts) (hf : Complains (f a) (us ++ [x]) y) :
    Complains (m >>= f) (ts ++ us ++ [x]) y := by
  intro s hs hprefix
  obtain ⟨vs, hvs⟩ := (List.prefix_append ts us).trans (Checker.prefix_ahead_of_prefix_view hprefix)
  obtain ⟨hanswer, hready, -, -⟩ := hm.2 s vs hs hvs.symm
  rw [hm.view hs hvs.symm, List.append_assoc, List.prefix_append_right_inj] at hprefix
  rw [bind_apply, hanswer]
  exact hf _ hready hprefix

/-- The same for one token in front of others. -/
lemma Takes.complains_cons {m : Check α} {f : α → Check β} {a : α} {t u y : Token} {us : List Token}
    (hm : Takes m a [t]) (hf : Complains (f a) (u :: us) y) :
    Complains (m >>= f) (t :: u :: us) y := by
  rw [← List.dropLast_append_getLast (List.cons_ne_nil u us)] at hf ⊢
  exact hm.complains hf

/-- A check that runs alike in front of `t` complains of the same. -/
lemma Complains.of_current {m n : Check α} {t y : Token} {us : List Token}
    (h : Complains m (t :: us) y) (hrun : ∀ s : Checker, s.Ready → s.current = t → n s = m s) :
    Complains n (t :: us) y := by
  intro s hs hus
  rw [hrun s hs (Checker.current_eq_of_prefix hus)]
  exact h s hs hus

/-! ## Outcomes -/

/-- When a check complains late: behind some tokens, of one, because of the next. -/
abbrev Late := List Token → Token → Token → Prop

/-- The token `y` is blamed because of `x` behind the tokens `seen`: they are the same, or `y`
stands in front of `x` and `E` allows it. -/
inductive Blames (E : Late) : List Token → Token → Token → Prop
  | at_fault {seen : List Token} {x : Token} : Blames E seen x x
  | late {seen : List Token} {y x : Token} : E seen y x → Blames E (seen ++ [y]) x y

/-- From the state `s`, a check takes some of the tokens ahead; or it complains of some, and could
take all but the last of them, if there are any, with others behind. -/
inductive Outcome (E : Late) (m : Check α) (s : Checker) : Prop
  | takes {a : α} {ts : List Token} : Takes m a ts → ts <+: s.ahead → Outcome E m s
  | complains {seen : List Token} {x y : Token} :
      seen ++ [x] <+: s.view → Complains m (seen ++ [x]) y → Blames E seen x y →
        (seen ≠ [] → ∃ a vs, Takes m a (seen ++ vs)) → Outcome E m s

lemma Blames.mono {E E' : Late} {seen : List Token} {x y : Token} (h : Blames E seen x y)
    (hE : ∀ seen y x, E seen y x → E' seen y x) : Blames E' seen x y := by
  cases h with
  | at_fault => exact .at_fault
  | late h => exact .late (hE _ _ _ h)

/-- Tokens that were taken before stand in front of what is blamed. -/
lemma Blames.prepend {E : Late} {ts seen : List Token} {x y : Token}
    (h : Blames (fun b => E (ts ++ b)) seen x y) : Blames E (ts ++ seen) x y := by
  cases h with
  | at_fault => exact .at_fault
  | late h =>
    rw [← List.append_assoc]
    exact .late h

lemma Outcome.mono {E E' : Late} {m : Check α} {s : Checker} (h : Outcome E m s)
    (hE : ∀ seen y x, E seen y x → E' seen y x) : Outcome E' m s := by
  cases h with
  | takes htakes hts => exact .takes htakes hts
  | complains hview hcomplains hblames hrepair =>
    exact .complains hview hcomplains (hblames.mono hE) hrepair

/-- **Sequencing.** If the first check complains, then so does the whole, and what the first could
take can be continued. If it takes some tokens, then the outcome is that of the second behind
them. -/
lemma Outcome.bind {E : Late} {m : Check α} {f : α → Check β} {s : Checker} (hs : s.Ready)
    (hm : Outcome E m s) (hforward : Forward m) (hforward' : ∀ a, Forward (f a))
    (htakes' : ∀ a ts, Takes m a ts → ∃ b us, Takes (f a) b us)
    (hf : ∀ a ts, Takes m a ts → s.ahead = ts ++ (m s).2.ahead → (m s).2.Ready →
      Outcome (fun b => E (ts ++ b)) (f a) (m s).2) : Outcome E (m >>= f) s := by
  cases hm with
  | @complains seen x y hview hcomplains hblames hrepair =>
    refine .complains hview (hcomplains.bind hforward hforward') hblames fun hne => ?_
    obtain ⟨a, vs, htakes⟩ := hrepair hne
    obtain ⟨b, us, hus⟩ := htakes' a _ htakes
    exact ⟨b, vs ++ us, by rw [← List.append_assoc]; exact htakes.bind hus⟩
  | @takes a ts htakes hts =>
    obtain ⟨rest, hahead⟩ := hts
    have hview := htakes.view hs hahead.symm
    obtain ⟨-, hready, hrest, -⟩ := htakes.2 s rest hs hahead.symm
    have houtcome := hf a ts htakes (by rw [hrest, hahead]) hready
    cases houtcome with
    | @takes b us hus hprefix =>
      refine .takes (htakes.bind hus) ?_
      rw [← hahead, ← hrest, List.prefix_append_right_inj]
      exact hprefix
    | @complains seen x y hprefix hcomplains hblames hrepair =>
      refine .complains ?_ (htakes.complains hcomplains) hblames.prepend
        fun _ => ?_
      · rw [hview, List.append_assoc, List.prefix_append_right_inj]
        exact hprefix
      · obtain ⟨b, vs, hvs⟩ : ∃ b vs, Takes (f a) b (seen ++ vs) := by
          cases seen with
          | nil => exact htakes' a ts htakes
          | cons t seen => exact hrepair (List.cons_ne_nil t seen)
        exact ⟨b, vs, by rw [List.append_assoc]; exact htakes.bind hvs⟩

/-- A check that fails an expectation if nothing is ahead. -/
def Demands (m : Check α) : Prop := ∀ s : Checker, s.Ready → s.ahead = [] → ¬ (m s).2.Tidy

/-- What demands a token takes one. -/
lemma Demands.not_takes_nil {m : Check α} (h : Demands m) (a : α) : ¬ Takes m a [] := by
  intro ht
  have hready := Checker.ready_facing ht.1
  exact h _ hready rfl (ht.2 _ [] hready rfl).2.1.tidy

/-- What passes a token somewhere takes one. -/
lemma Passes.not_takes_nil {m : Check α} {s : Checker} (h : Passes m s) (hs : s.Ready) (a : α) :
    ¬ Takes m a [] := by
  intro ht
  have hahead := (ht.2 s s.ahead hs rfl).2.2.1
  rw [Passes, hahead] at h
  exact Nat.lt_irrefl _ h

lemma Demands.bind {m : Check α} {f : α → Check β} (h : Demands m) (hm : Forward m)
    (hf : ∀ a, Forward (f a)) : Demands (m >>= f) := by
  intro s hs hnil htidy
  exact h s hs hnil (htidy.of_suffix (hf _ _ (hm.eof_kind hs.eof_kind)).2.1)

/-- **The token at hand decides.** A check that runs like `m` in front of that token has the outcome
of `m`, unless `m` takes nothing. -/
lemma Outcome.of_current {E : Late} {m n : Check α} {s : Checker} (h : Outcome E m s)
    (hnil : ∀ a, ¬ Takes m a [])
    (hrun : ∀ s' : Checker, s'.Ready → s'.current = s.current → n s' = m s') :
    Outcome E n s := by
  cases h with
  | @takes a ts htakes hts =>
    cases ts with
    | nil => exact absurd htakes (hnil a)
    | cons t ts =>
      obtain ⟨rest, hrest⟩ := hts
      obtain rfl := Checker.current_of_ahead hrest.symm
      exact .takes (htakes.of_current hrun) ⟨rest, hrest⟩
  | @complains seen x y hview hcomplains hblames hrepair =>
    cases seen with
    | nil =>
      obtain rfl := Checker.current_eq_of_prefix hview
      exact .complains hview (hcomplains.of_current hrun) hblames
        fun hne => absurd rfl hne
    | cons t seen =>
      obtain rfl := Checker.current_eq_of_prefix hview
      refine .complains hview (hcomplains.of_current hrun) hblames
        fun hne => ?_
      obtain ⟨a, vs, htakes⟩ := hrepair hne
      exact ⟨a, vs, htakes.of_current hrun⟩

/-! ## Checks that complain in time -/

/-- Under the condition `c`, the check `m` can take some tokens, and complains in time but for `E`.
In any case it moves forward. -/
structure Guided (c : Prop) (E : Late) (m : Check α) : Prop where
  forward : Forward m
  takes : c → ∃ a ts, Takes m a ts
  outcome : c → ∀ s : Checker, s.Ready → Outcome E m s

section Guided

variable {c : Prop} {E : Late}

lemma Guided.mono {E' : Late} {m : Check α} (h : Guided c E m)
    (hE : ∀ seen y x, E seen y x → E' seen y x) : Guided c E' m :=
  ⟨h.forward, h.takes, fun hc s hs => (h.outcome hc s hs).mono hE⟩

/-- **Sequencing.** The second check has to be guided only behind what the first can take. -/
lemma Guided.bind {m : Check α} {f : α → Check β} (hm : Guided c E m)
    (hf : ∀ a, Guided (c ∧ ∃ ts, Takes m a ts) (fun b y x => ∀ ts, Takes m a ts → E (ts ++ b) y x)
      (f a)) : Guided c E (m >>= f) where
  forward := hm.forward.bind fun a => (hf a).forward
  takes hc := by
    obtain ⟨a, ts, htakes⟩ := hm.takes hc
    obtain ⟨b, us, hus⟩ := (hf a).takes ⟨hc, ts, htakes⟩
    exact ⟨b, _, htakes.bind hus⟩
  outcome hc s hs := by
    refine (hm.outcome hc s hs).bind hs hm.forward (fun a => (hf a).forward)
      (fun a ts htakes => (hf a).takes ⟨hc, ts, htakes⟩) fun a ts htakes _ hready => ?_
    exact ((hf a).outcome ⟨hc, ts, htakes⟩ _ hready).mono fun b y x hE => hE ts htakes

/-- Where the condition does not hold, it is enough to move forward. -/
lemma guided_absurd {m : Check α} (hm : Forward m) (hc : ¬ c) : Guided c E m :=
  ⟨hm, fun h => absurd h hc, fun h => absurd h hc⟩

lemma guided_ite {b : Prop} [Decidable b] {m n : Check α} (hm : b → Guided c E m)
    (hn : ¬ b → Guided c E n) : Guided c E (if b then m else n) := by
  split
  · exact hm ‹_›
  · exact hn ‹_›

/-- A check that takes nothing always does. -/
lemma guided_of_takes_nil {m : Check α} {a : α} (hm : Forward m) (h : Takes m a []) :
    Guided c E m :=
  ⟨hm, fun _ => ⟨a, [], h⟩, fun _ _ _ => .takes h List.nil_prefix⟩

/-- An answer may be dropped. -/
lemma Takes.discard {m : Check α} {a : α} {ts : List Token} (h : Takes m a ts) :
    Takes (discard m : Check PUnit) ⟨⟩ ts :=
  ⟨h.1, fun s rest hs hahead => ⟨rfl, (h.2 s rest hs hahead).2⟩⟩

lemma Guided.discard {m : Check α} (h : Guided c E m) :
    Guided c E (discard m : Check PUnit) where
  forward := h.forward.discard.forward
  takes hc := by
    obtain ⟨a, ts, htakes⟩ := h.takes hc
    exact ⟨⟨⟩, ts, htakes.discard⟩
  outcome hc s hs := by
    cases h.outcome hc s hs with
    | takes htakes hts => exact .takes htakes.discard hts
    | complains hview hcomplains hblames hrepair =>
      refine .complains hview hcomplains hblames fun hne => ?_
      obtain ⟨a, vs, htakes⟩ := hrepair hne
      exact ⟨⟨⟩, vs, htakes.discard⟩

/-! ## Building blocks -/

/-- Passing the token `t` takes it. -/
lemma takes_of_skip {m : Check α} {a : α} {t : Token} (ht : t.kind ≠ .eof)
    (hrun : ∀ s : Checker, s.current = t → m s = (a, s.skip)) : Takes m a [t] := by
  refine ⟨List.forall_mem_singleton.2 ht, fun s rest hs hahead => ?_⟩
  have hskip : s.ahead = s.current :: s.skip.ahead :=
    hs.ahead_eq (by rwa [Checker.current_of_ahead hahead])
  rw [hahead] at hskip
  rw [hrun s (Checker.current_of_ahead hahead)]
  exact ⟨rfl, hs.skip, (List.cons.inj hskip).2.symm, s.skip_forward.1⟩

/-- A run that passes the tokens `ts` with remarks alone takes them. -/
lemma takes_of_run {m : Check α} {a : α} {ts : List Token} (hts : ∀ t ∈ ts, t.kind ≠ .eof)
    (hrun : ∀ past rest eof reports definitions julietSeen, ∃ past' new definitions' julietSeen',
      m ⟨past, ts ++ rest, eof, reports, definitions, julietSeen⟩ =
        (a, ⟨past', rest, eof, List.reverse new ++ reports, definitions', julietSeen'⟩) ∧
      ∀ d ∈ new, d.finding.isRemark = true) : Takes m a ts := by
  refine ⟨hts, fun s rest hs hahead => ?_⟩
  obtain ⟨past, ahead, eof, reports, definitions, julietSeen⟩ := s
  obtain rfl : ahead = ts ++ rest := hahead
  obtain ⟨past', new, definitions', julietSeen', hm, hnew⟩ :=
    hrun past rest eof reports definitions julietSeen
  rw [hm]
  refine ⟨rfl, ⟨hs.eof_kind, fun t ht => hs.kind_ne_eof t (List.mem_append_right ts ht), ?_⟩, rfl,
    rfl⟩
  exact List.forall_mem_append.2 ⟨fun d hd => hnew d (List.mem_reverse.1 hd), hs.tidy⟩

/-- A failed expectation on the token at hand is a complaint of that token. -/
lemma complains_of_report {m n : Check α} {t : Token} (what : String) (hn : Forward n)
    (hrun : ∀ s : Checker, s.Ready → s.current = t →
      m s = n (report (.expected what) s.current s).2) : Complains m [t] t := by
  intro s hs hus
  have hcurrent := Checker.current_eq_of_prefix hus
  have hfirst : FirstAt (report (.expected what) s.current s).2.reports t :=
    ⟨[], ⟨.expected what, s.current.range⟩, s.reports, rfl, ⟨what, rfl⟩, by rw [hcurrent], hs.tidy⟩
  rw [hrun s hs hcurrent]
  exact hfirst.of_suffix (hn (report (.expected what) s.current s).2 hs.eof_kind).2.1

/-- A check that complains of the token at hand has the outcome to do so. -/
lemma outcome_of_complains {m : Check α} {s : Checker}
    (h : Complains m [s.current] s.current) : Outcome E m s :=
  .complains s.singleton_prefix_view h .at_fault fun hne => absurd rfl hne

lemma takes_expect {kinds : List TokenKind} (hkinds : .eof ∉ kinds) {t : Token}
    (ht : t.kind ∈ kinds) (f : Finding) : Takes (expect kinds f) (some t) [t] := by
  refine takes_of_skip (fun h => hkinds (h ▸ ht)) ?_
  rintro s rfl
  rw [expect_apply, if_pos (by simpa [Checker.isAt] using ht)]

/-- Expecting a token of some kinds. -/
lemma guided_expect {kinds : List TokenKind} (hkinds : .eof ∉ kinds) (hne : kinds ≠ [])
    (what : String) : Guided c E (expect kinds (.expected what)) where
  forward := (reads_expect hkinds what).forward
  takes _ := by
    obtain ⟨kind, rest, rfl⟩ := List.exists_cons_of_ne_nil hne
    exact ⟨_, _, takes_expect hkinds (t := ⟨kind, "", default⟩) (List.mem_cons_self ..) _⟩
  outcome _ s hs := by
    by_cases h : s.current.kind ∈ kinds
    · have hkind : s.current.kind ≠ .eof := fun heof => hkinds (heof ▸ h)
      exact .takes (takes_expect hkinds h _) ⟨s.skip.ahead, (hs.ahead_eq hkind).symm⟩
    · refine outcome_of_complains (complains_of_report (n := pure none) what
        (reads_pure trivial) fun s' _ hcurrent => ?_)
      rw [expect_apply, if_neg (by simpa [Checker.isAt, hcurrent] using h)]
      rfl

lemma takes_expectWord {word : String} (w : Word word) (f : Finding) :
    Takes (expectWord word f) (some w.token) [w.token] := by
  refine takes_of_skip (by rw [w.kind_eq]; exact TokenKind.noConfusion) fun s hcurrent => ?_
  rw [expectWord_apply, if_pos (by rw [Checker.isAtWord, hcurrent, w.isWord]), hcurrent]

/-- Expecting a word. -/
lemma guided_expectWord (word what : String) : Guided c E (expectWord word (.expected what)) where
  forward := (reads_expectWord word what).forward
  takes _ := ⟨_, _, takes_expectWord ⟨⟨.identifier, word, default⟩, by simp [Token.isWord]⟩ _⟩
  outcome _ s hs := by
    by_cases h : s.isAtWord word = true
    · have hkind := kind_ne_of_isAtWord hs.eof_kind h
      rw [hs.eof_kind] at hkind
      exact .takes (takes_expectWord ⟨s.current, h⟩ _) ⟨s.skip.ahead, (hs.ahead_eq hkind).symm⟩
    · refine outcome_of_complains (complains_of_report (n := pure none) what
        (reads_pure trivial) fun s' _ hcurrent => ?_)
      rw [expectWord_apply, if_neg (by rwa [Checker.isAtWord, hcurrent])]
      rfl

/-- Expecting a token of some kinds, whatever it is. -/
lemma guided_expectLeaf {kinds : List TokenKind} (hkinds : .eof ∉ kinds) (hne : kinds ≠ [])
    (what : String) : Guided c E (discard (expect kinds (.expected what))) :=
  (guided_expect hkinds hne what).discard

lemma guided_expectName (what : String) : Guided c E (expectName what) :=
  guided_expect (by decide) (by decide) what

lemma guided_expectNumber (what : String) : Guided c E (expectNumber what) :=
  guided_expect (by decide) (by decide) what

lemma guided_expectLiteral (what : String) : Guided c E (expectLiteral what) :=
  guided_expect (by decide) (by decide) what

lemma guided_expectMark (m : Mark) (what : String) : Guided c E (expectMark m what) :=
  guided_expectLeaf (by simp) (by simp) what

lemma guided_expectKeyword (word what : String) : Guided c E (expectKeyword word what) :=
  (guided_expectWord word what).discard

lemma takes_expectMark {m : Mark} (l : Punct m) (what : String) :
    Takes (expectMark m what) () [l.token] :=
  (takes_expect (by simp) l.kind_mem _).discard

lemma takes_expectKeyword {word : String} (w : Word word) (what : String) :
    Takes (expectKeyword word what) () [w.token] :=
  (takes_expectWord w _).discard

/-! ## Remarks -/

/-- A check that only ever makes remarks. -/
def Silent (m : Check Unit) : Prop := Forward m ∧ Takes m () []

lemma takes_pure (a : α) : Takes (pure a) a [] := by
  refine ⟨List.forall_mem_nil _, fun s rest hs hahead => ?_⟩
  exact ⟨rfl, hs, hahead, rfl⟩

lemma guided_pure (a : α) : Guided c E (pure a) :=
  guided_of_takes_nil (reads_pure trivial) (takes_pure a)

lemma silent_pure : Silent (pure ()) := ⟨reads_pure trivial, takes_pure ()⟩

lemma silent_report {f : Finding} (hf : f.isRemark = true) (t : Token) : Silent (report f t) := by
  refine ⟨(reads_report f t).forward, List.forall_mem_nil _, fun s rest hs hahead => ?_⟩
  exact ⟨rfl, ⟨hs.eof_kind, hs.kind_ne_eof, List.forall_mem_cons.2 ⟨hf, hs.tidy⟩⟩, hahead, rfl⟩

lemma silent_define (kind : SymbolKind) (name : Token) : Silent (define kind name) := by
  refine ⟨(reads_define kind name).forward, List.forall_mem_nil _, fun s rest hs hahead => ?_⟩
  rw [define_apply]
  split
  · exact (silent_report rfl name).2.2 s rest hs hahead
  · exact ⟨rfl, ⟨hs.eof_kind, hs.kind_ne_eof, hs.tidy⟩, hahead, rfl⟩

lemma silent_resolve (kind : SymbolKind) (site : ReferenceSite) (name : Token) :
    Silent (resolve kind site name) := by
  refine ⟨(reads_resolve kind site name).forward, List.forall_mem_nil _, fun s rest hs hahead => ?_⟩
  rw [resolve_apply]
  split
  · exact ⟨rfl, hs, hahead, rfl⟩
  · exact (silent_report rfl name).2.2 s rest hs hahead

lemma silent_ite {b : Prop} [Decidable b] {m n : Check Unit} (hm : b → Silent m)
    (hn : ¬ b → Silent n) : Silent (if b then m else n) := by
  split
  · exact hm ‹_›
  · exact hn ‹_›

lemma silent_requirePositive {f : Finding} (hf : f.isRemark = true) (n : Option Token) :
    Silent (requirePositive f n) := by
  cases n with
  | none => exact silent_pure
  | some t => exact silent_ite (fun _ => silent_pure) fun _ => silent_report hf t

lemma Silent.bind {m : Check Unit} {f : Unit → Check Unit} (hm : Silent m) (hf : Silent (f ())) :
    Silent (m >>= f) :=
  ⟨hm.1.bind fun _ => hf.1, hm.2.bind hf.2⟩

lemma silent_forM (as : List α) {f : α → Check Unit} (hf : ∀ a, Silent (f a)) :
    Silent (as.forM f) := by
  induction as with
  | nil => exact silent_pure
  | cons a as ih => exact (hf a).bind ih

lemma Silent.guided {m : Check Unit} (h : Silent m) : Guided c E m := guided_of_takes_nil h.1 h.2

/-- What takes nothing takes no tokens. -/
lemma Takes.eq_nil {m : Check α} {a b : α} {ts : List Token} (h : Takes m a [])
    (ht : Takes m b ts) : ts = [] := by
  have hready := Checker.ready_facing ht.1
  have hahead : (Checker.facing ts).ahead = ts ++ [] := by simp [Checker.facing, Checker.start]
  have hall := (h.2 (.facing ts) (ts ++ []) hready hahead).2.2.1
  rw [(ht.2 (.facing ts) [] hready hahead).2.2.1] at hall
  simpa using hall.symm

/-- A remark keeps no complaint back. -/
lemma Silent.complains {m : Check Unit} {f : Unit → Check β} {us : List Token} {y : Token}
    (hm : Silent m) (hf : Complains (f ()) us y) : Complains (m >>= f) us y := by
  intro s hs hprefix
  have hview := hm.2.view hs rfl
  exact hf _ (hm.2.2 s s.ahead hs rfl).2.1 (by rwa [hview] at hprefix)

/-- A remark in front of a check. -/
lemma Guided.after {m : Check Unit} {f : Unit → Check β} (hf : Guided c E (f ()))
    (hm : Silent m) : Guided c E (m >>= f) := by
  refine hm.guided.bind fun _ => ⟨hf.forward, fun h => hf.takes h.1, fun h s hs => ?_⟩
  refine (hf.outcome h.1 s hs).mono fun b y x hE ts hts => ?_
  rw [hm.2.eq_nil hts]
  exact hE

/-- A remark that is made under a condition, in front of `k`. -/
lemma guided_when {b : Prop} [Decidable b] {m : Check Unit} {k : Unit → Check β}
    (hk : Guided c E (k ())) (hm : Silent m) : Guided c E (if b then m >>= k else k ()) :=
  guided_ite (fun _ => hk.after hm) fun _ => hk

/-- A remark that is made unless a condition holds, in front of `k`. -/
lemma guided_unless {b : Prop} [Decidable b] {m : Check Unit} {k : Unit → Check β}
    (hk : Guided c E (k ())) (hm : Silent m) : Guided c E (if b then k () else m >>= k) :=
  guided_ite (fun _ => hk) fun _ => hk.after hm

/-! ## Failed expectations at the end -/

lemma demands_expect {kinds : List TokenKind} (hkinds : .eof ∉ kinds) (what : String) :
    Demands (expect kinds (.expected what)) := by
  intro s hs hnil htidy
  have hat : s.isAt kinds = false := by
    simp [Checker.isAt, Checker.current, hnil, hs.eof_kind, hkinds]
  rw [expect_apply, hat] at htidy
  exact Bool.noConfusion (htidy ⟨.expected what, s.current.range⟩ (List.mem_cons_self ..))

lemma demands_expectMark (m : Mark) (what : String) : Demands (expectMark m what) :=
  demands_expect (by simp) what

/-- A word is not at hand at the end. -/
lemma isAtWord_eq_false {s : Checker} (hs : s.Ready) (hnil : s.ahead = []) (word : String) :
    s.isAtWord word = false := by
  refine isWord_eq_false_of_kind ?_ word
  simp [Checker.current, hnil, hs.eof_kind]

lemma demands_expectWord (word what : String) : Demands (expectWord word (.expected what)) := by
  intro s hs hnil htidy
  rw [expectWord_apply, isAtWord_eq_false hs hnil] at htidy
  exact Bool.noConfusion (htidy ⟨.expected what, s.current.range⟩ (List.mem_cons_self ..))

end Guided

end Check

end WorkflowLint
