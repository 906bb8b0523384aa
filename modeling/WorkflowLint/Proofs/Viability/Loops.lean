import WorkflowLint.Proofs.Viability.Basic

/-!
# Choices and loops that complain in time

A keyword decides between two ways to go on; a loop goes on up to what closes it. In both cases the
token at hand tells which way to take, so a complaint of the one way is a complaint of the whole.

A loop is not closed by what it passes but by what stands behind, so it is treated together with the
mark that closes it.

## Main results

* `WorkflowLint.Check.guided_keyword` — a keyword decides.
* `WorkflowLint.Check.guided_block` — the items of a block and the brace that closes it.
* `WorkflowLint.Check.guided_listed` — the items of a list and the bracket that closes it.
-/

set_option autoImplicit false

namespace WorkflowLint.Check

open Grammar

variable {α β γ : Type} {c : Prop} {E : Late}

/-! ## Keywords -/

section Keyword

variable {word : String} {m n : Check α} {s : Checker}

/-- At the keyword, the check goes on as if it had been expected. -/
lemma keyword_of_isAtWord (h : s.isAtWord word = true) (what : String) :
    (acceptWord word >>= fun given => if given then m else n) s =
      (expectWord word (.expected what) >>= fun _ => m) s := by
  simp [acceptWord_apply, expectWord_apply, h]

lemma keyword_of_not_isAtWord (h : s.isAtWord word = false) :
    (acceptWord word >>= fun given => if given then m else n) s = n s := by
  simp [acceptWord_apply, h]

lemma forward_keyword (hm : Forward m) (hn : Forward n) :
    Forward (acceptWord word >>= fun given => if given then m else n) :=
  (reads_acceptWord word).forward.bind fun _ => reads_ite (fun _ => hm) fun _ => hn

lemma demands_keyword (hn : Demands n) :
    Demands (acceptWord word >>= fun given => if given then m else n) := by
  intro s hs hnil
  rw [keyword_of_not_isAtWord (isAtWord_eq_false hs hnil word)]
  exact hn s hs hnil

/-- What stands behind the keyword is taken with it. -/
lemma takes_keyword {a : α} {ts : List Token} (w : Word word) (hm : Takes m a ts) :
    Takes (acceptWord word >>= fun given => if given then m else n) a (w.token :: ts) := by
  have htakes := (takes_expectWord w (.expected word)).bind (f := fun _ => m) hm
  refine htakes.of_current fun s _ hcurrent => keyword_of_isAtWord ?_ word
  rw [Checker.isAtWord, hcurrent, w.isWord]

/-- At the keyword, the outcome is that of what stands behind it; elsewhere that of `n`. -/
lemma outcome_keyword (hs : s.Ready) (hc : c)
    (hm : Guided c (fun b y x => ∀ w : Word word, E (w.token :: b) y x) m) (hdemands : Demands n)
    (hn : s.isAtWord word = false → Outcome E n s) :
    Outcome E (acceptWord word >>= fun given => if given then m else n) s := by
  by_cases h : s.isAtWord word = true
  · have hguided : Guided c E (expectWord word (.expected word) >>= fun _ => m) := by
      refine (guided_expectWord word word).bind fun _ =>
        ⟨hm.forward, fun h => hm.takes h.1, fun h s hs => ?_⟩
      refine (hm.outcome h.1 s hs).mono fun b y x hE ts hts => ?_
      obtain ⟨w, rfl⟩ := hts.reads (reads_expectWord word word)
      exact hE w
    have hdemands' : Demands (expectWord word (.expected word) >>= fun _ => m) :=
      (demands_expectWord word word).bind (reads_expectWord word word).forward fun _ => hm.forward
    refine (hguided.outcome hc s hs).of_current hdemands'.not_takes_nil fun s' _ hcurrent => ?_
    exact keyword_of_isAtWord (by rwa [Checker.isAtWord, hcurrent]) word
  · rw [Bool.not_eq_true] at h
    refine (hn h).of_current hdemands.not_takes_nil fun s' _ hcurrent => ?_
    exact keyword_of_not_isAtWord (by rwa [Checker.isAtWord, hcurrent])

/-- What stands behind a keyword can be taken, so the choice can. -/
lemma exists_takes_keyword (hm : ∃ a ts, Takes m a ts) :
    ∃ a ts, Takes (acceptWord word >>= fun given => if given then m else n) a ts := by
  obtain ⟨a, ts, htakes⟩ := hm
  exact ⟨a, _, takes_keyword ⟨⟨.identifier, word, default⟩, by simp [Token.isWord]⟩ htakes⟩

/-- **A keyword decides.** Behind it the check goes on with `m`; without it, with `n` from the same
state. -/
lemma guided_keyword (hm : Guided c (fun b y x => ∀ w : Word word, E (w.token :: b) y x) m)
    (hn : Guided c E n) (hdemands : Demands n) :
    Guided c E (acceptWord word >>= fun given => if given then m else n) where
  forward := forward_keyword hm.forward hn.forward
  takes hc := exists_takes_keyword (hm.takes hc)
  outcome hc s hs := outcome_keyword hs hc hm hdemands fun _ => hn.outcome hc s hs

/-- What complains of every token complains of the end. -/
lemma demands_of_complains (h : ∀ t, Complains n [t] t) : Demands n := by
  intro s hs _
  exact (h s.current s hs s.singleton_prefix_view).not_tidy

/-- The last of some keywords: without it, the token at hand is complained of. -/
lemma guided_keyword_last (hm : Guided c (fun b y x => ∀ w : Word word, E (w.token :: b) y x) m)
    (hforward : Forward n) (hn : ∀ t, Complains n [t] t) :
    Guided c E (acceptWord word >>= fun given => if given then m else n) where
  forward := forward_keyword hm.forward hforward
  takes hc := exists_takes_keyword (hm.takes hc)
  outcome hc s hs := outcome_keyword hs hc hm (demands_of_complains hn) fun _ =>
    outcome_of_complains (hn s.current)

/-- A complaint of the token at hand, whatever is done behind it. -/
lemma complains_reportCurrent_bind {f : Unit → Check α} (hf : Forward (f ())) (what : String)
    (t : Token) : Complains (reportCurrent (.expected what) >>= f) [t] t :=
  complains_of_report what hf fun _ _ _ => rfl

end Keyword

/-! ## What closes a loop -/

/-- What stands behind a loop asks for the mark `m` first. -/
structure Closing (m : Mark) (close : β → Check γ) : Prop where
  forward (b : β) : Forward (close b)
  demands (b : β) : Demands (close b)
  reads (b : β) : Reads (close b) fun _ ts => ∃ l : Punct m, l.token ∈ ts.head?

lemma closing_expectMark (m : Mark) (what : String) :
    Closing m (fun _ : β => expectMark m what) where
  forward _ := (reads_expectMark m what).forward
  demands _ := demands_expectMark m what
  reads _ := by
    refine (reads_expectMark m what).mono ?_
    rintro _ _ ⟨l, rfl⟩
    exact ⟨l, rfl⟩

lemma closing_expectMark_bind (m : Mark) (what : String) {f : β → Check γ}
    (hf : ∀ b, Forward (f b)) : Closing m (fun b => expectMark m what >>= fun _ => f b) where
  forward b := (reads_expectMark m what).forward.bind fun _ => hf b
  demands b := (demands_expectMark m what).bind (reads_expectMark m what).forward fun _ => hf b
  reads b := by
    refine (reads_expectMark m what).bind fun _ => (hf b).mono ?_
    rintro _ us - _ ⟨l, rfl⟩
    exact ⟨l, rfl⟩

/-- What closes a loop takes a mark first. -/
lemma Closing.takes {m : Mark} {close : β → Check γ} (h : Closing m close) {b : β}
    (hclose : ∃ a ts, Takes (close b) a ts) :
    ∃ (l : Punct m) (a : γ) (ts : List Token), Takes (close b) a (l.token :: ts) := by
  obtain ⟨a, ts, hts⟩ := hclose
  obtain ⟨l, hl⟩ := hts.reads (h.reads b)
  obtain ⟨rest, rfl⟩ := List.head?_eq_some_iff.1 hl
  exact ⟨l, a, rest, hts⟩

/-! ## Blocks -/

section Block

variable {item : β → Check β} {close : β → Check γ}

lemma forward_untilClosed (hitem : ∀ b, Forward (item b)) (b : β) : Forward (untilClosed item b) :=
  forward_iterate (forward_blockRound hitem) b

/-- In front of a closing brace or the end, a block goes on with what closes it. -/
lemma block_of_closed {b : β} {s : Checker}
    (h : (s.isAt [.mark .closeBrace] || s.atEnd) = true) :
    (untilClosed item b >>= close) s = close b s := by
  rw [bind_apply, untilClosed_apply, if_pos h]

/-- Elsewhere, something is ahead. -/
lemma open_of_ready {s : Checker} (hs : s.Ready) (hbrace : s.current.kind ≠ .mark .closeBrace)
    (heof : s.current.kind ≠ .eof) : s.isAt [.mark .closeBrace] = false ∧ s.atEnd = false := by
  refine ⟨by simp [Checker.isAt, hbrace], ?_⟩
  rw [Checker.atEnd, hs.ahead_eq heof]
  rfl

variable (hpasses : ∀ b s, s.eof.kind = .eof → s.isAt [.mark .closeBrace] = false →
  s.atEnd = false → Passes (item b) s)

include hpasses

/-- There a block goes on with an item. -/
lemma block_of_open {b : β} {s : Checker} (hs : s.Ready)
    (hbrace : s.current.kind ≠ .mark .closeBrace) (heof : s.current.kind ≠ .eof) :
    (untilClosed item b >>= close) s = (item b >>= fun b => untilClosed item b >>= close) s := by
  obtain ⟨hopen, hmore⟩ := open_of_ready hs hbrace heof
  have hlt := hpasses b s hs.eof_kind hopen hmore
  rw [Passes] at hlt
  rw [bind_apply, untilClosed_apply, hopen, hmore, if_neg (by exact Bool.false_ne_true), if_pos hlt]
  rfl

/-- A complaint of an item is one of the block. -/
lemma Complains.block {b : β} {t y : Token} {us : List Token} (h : Complains (item b) (t :: us) y)
    (hbrace : t.kind ≠ .mark .closeBrace) (heof : t.kind ≠ .eof) (hitem : ∀ b, Forward (item b))
    (hclose : ∀ b, Forward (close b)) : Complains (untilClosed item b >>= close) (t :: us) y := by
  refine (h.bind (hitem b) fun b => (forward_untilClosed hitem b).bind hclose).of_current
    fun s hs hcurrent => block_of_open hpasses hs ?_ ?_
  · rwa [hcurrent]
  · rwa [hcurrent]

/-- What is complained of behind an item that is taken is complained of with it in front. -/
lemma Takes.block_complains {b b' : β} {t x y : Token} {ts us : List Token}
    (h : Takes (item b) b' (t :: ts)) (hbrace : t.kind ≠ .mark .closeBrace)
    (hf : Complains (untilClosed item b' >>= close) (us ++ [x]) y) :
    Complains (untilClosed item b >>= close) (t :: ts ++ us ++ [x]) y := by
  have hbehind := h.complains (f := fun b => untilClosed item b >>= close) hf
  refine hbehind.of_current fun s hs hcurrent => block_of_open hpasses hs ?_ ?_
  · rwa [hcurrent]
  · rw [hcurrent]
    exact h.1 t (List.mem_cons_self ..)

/-- **The items of a block**, with what closes it. If every item passes a token and complains in
time, then so does the block.

**Proof sketch.** Induction on the number of tokens ahead. The token at hand tells whether the block
is closed, and then the outcome is that of what closes it. Otherwise it is that of an item, and of
the rest of the block behind it. What is missing can be a closing brace in any case. -/
lemma guided_block (hitem : ∀ b, Guided c E (item b))
    (hE : ∀ {b b' ts}, Takes (item b) b' ts → ∀ seen y x, E seen y x → E (ts ++ seen) y x)
    (hclosing : Closing .closeBrace close) (hclose : ∀ b, Guided c E (close b)) (b : β) :
    Guided c E (untilClosed item b >>= close) := by
  have hforward : ∀ b, Forward (untilClosed item b >>= close) := fun b =>
    (forward_untilClosed (fun b => (hitem b).forward) b).bind hclosing.forward
  have htakes : c → ∀ b, ∃ a ts, Takes (untilClosed item b >>= close) a ts := by
    intro hc b
    obtain ⟨l, a, ts, h⟩ := hclosing.takes ((hclose b).takes hc)
    refine ⟨a, _, h.of_current fun s _ hcurrent => block_of_closed ?_⟩
    simp [Checker.isAt, hcurrent]
  refine ⟨hforward b, fun hc => htakes hc b, fun hc s hs => ?_⟩
  induction hn : s.ahead.length using Nat.strongRecOn generalizing b s with
  | _ n ih =>
    subst hn
    by_cases hcurrent : s.current.kind = .mark .closeBrace ∨ s.current.kind = .eof
    · refine ((hclose b).outcome hc s hs).of_current (hclosing.demands b).not_takes_nil
        fun s' hs' hsame => block_of_closed ?_
      rw [Bool.or_eq_true]
      rcases hcurrent with hkind | hkind
      · exact .inl (by simp [Checker.isAt, hsame, hkind])
      · rw [← hsame] at hkind
        exact .inr (by simp [Checker.atEnd, hs'.ahead_eq_nil hkind])
    · -- in front of an item
      rw [not_or] at hcurrent
      have hpass : Passes (item b) s := by
        obtain ⟨hopen, hmore⟩ := open_of_ready hs hcurrent.1 hcurrent.2
        exact hpasses b s hs.eof_kind hopen hmore
      have hbehind : Outcome E (item b >>= fun b => untilClosed item b >>= close) s := by
        refine ((hitem b).outcome hc s hs).bind hs (hitem b).forward hforward
          (fun b' _ _ => htakes hc b') fun b' ts hts hahead hready => ?_
        exact (ih _ hpass b' _ hready rfl).mono (hE hts)
      have hpassed : Passes (item b >>= fun b => untilClosed item b >>= close) s :=
        hpass.bind ((hitem b).forward.eof_kind hs.eof_kind) (hforward _)
      refine hbehind.of_current (hpassed.not_takes_nil hs) fun s' hs' hsame =>
        block_of_open hpasses hs' ?_ ?_
      · rw [hsame]
        exact hcurrent.1
      · rw [hsame]
        exact hcurrent.2

end Block

/-! ## Lists -/

/-- No token is blamed late. -/
def never : Late := fun _ _ _ => False

lemma Guided.of_never {m : Check α} (h : Guided c never m) : Guided c E m :=
  h.mono fun _ _ _ => False.elim

section List

variable {item : β → Check β} {close : β → Check γ}

/-- Behind an item of a list: a comma and the rest of the list, or what closes it. -/
def behindItem (item : β → Check β) (close : β → Check γ) (b : β) : Check γ := do
  if (← get).isAt [.mark .comma] then
    expectMark .comma "','"
    separated item b >>= close
  else
    close b

lemma behindItem_of_comma {b : β} {s : Checker} (h : s.isAt [.mark .comma] = true) :
    behindItem item close b s =
      (expectMark .comma "','" >>= fun _ => separated item b >>= close) s := by
  rw [behindItem, get_bind_apply, if_pos h]

lemma behindItem_of_not_comma {b : β} {s : Checker} (h : s.isAt [.mark .comma] = false) :
    behindItem item close b s = close b s := by
  rw [behindItem, get_bind_apply, if_neg (by rw [h]; exact Bool.false_ne_true)]

/-- A list is an item and what stands behind it. A comma has been passed, so the loop goes on. -/
lemma separated_bind_apply (hitem : ∀ b, Forward (item b)) {b : β} {s : Checker}
    (hs : s.eof.kind = .eof) :
    (separated item b >>= close) s = (item b >>= behindItem item close) s := by
  rw [bind_apply, bind_apply, separated_apply]
  by_cases hcomma : (item b s).2.isAt [.mark .comma] = true
  · have hgo : (listRound item b s).1.2 = true := by
      rw [listRound, bind_apply, bind_apply, accept_apply, if_pos hcomma]
      rfl
    have hlt : (item b s).2.skip.ahead.length < s.ahead.length := by
      have hpasses := passes_listRound hs (hitem b) hgo
      rw [Passes, listRound, bind_apply, bind_apply, accept_apply, if_pos hcomma] at hpasses
      exact hpasses
    rw [if_pos hcomma, if_pos hlt, behindItem_of_comma hcomma, bind_apply]
    simp only [expectMark, discard_apply, expect_apply, if_pos hcomma]
    rfl
  · rw [if_neg hcomma, behindItem_of_not_comma (by simpa using hcomma)]

lemma forward_separated (hitem : ∀ b, Forward (item b)) (b : β) : Forward (separated item b) :=
  forward_iterate (forward_listRound hitem) b

/-- In front of a closing bracket, a list is empty. -/
lemma listed_of_closed {b : β} {s : Checker} (h : s.isAt [.mark .closeBracket] = true) :
    (listed item b >>= close) s = close b s := by
  rw [bind_apply, listed_apply, if_pos h]

lemma listed_of_open {b : β} {s : Checker} (h : s.isAt [.mark .closeBracket] = false) :
    (listed item b >>= close) s = (separated item b >>= close) s := by
  rw [bind_apply, listed_apply, if_neg (by rw [h]; exact Bool.false_ne_true)]
  rfl

lemma forward_listed (hitem : ∀ b, Forward (item b)) (b : β) : Forward (listed item b) := by
  intro s hs
  exact readsAt_get_bind (readsAt_ite (fun _ => reads_pure trivial s hs) fun _ =>
    forward_separated hitem b s hs)

section Guided

variable (hitem : ∀ b, Guided c never (item b)) (hdemands : ∀ b, Demands (item b))
  (hclosing : Closing .closeBracket close)
  (hclose : ∀ b b' ts, Takes (item b) b' ts → Guided c never (close b'))

include hclosing hclose in
/-- What closes a list may stand behind an item. -/
lemma takes_behindItem (hc : c) {b b' : β} {ts : List Token} (h : Takes (item b) b' ts) :
    ∃ a us, Takes (behindItem item close b') a us := by
  obtain ⟨l, a, us, hus⟩ := hclosing.takes ((hclose b b' ts h).takes hc)
  refine ⟨a, _, hus.of_current fun s _ hcurrent => behindItem_of_not_comma ?_⟩
  simp [Checker.isAt, hcurrent]

include hitem hclosing

lemma forward_list (b : β) : Forward (separated item b >>= close) :=
  (forward_separated (fun b => (hitem b).forward) b).bind hclosing.forward

lemma forward_behindItem (b : β) : Forward (behindItem item close b) := by
  intro s hs
  refine readsAt_get_bind (readsAt_ite (fun _ => ?_) fun _ => hclosing.forward b s hs)
  exact (reads_expectMark _ _).forward.bind (fun _ => forward_list hitem hclosing b) s hs

include hdemands

lemma demands_list (b : β) : Demands (separated item b >>= close) := by
  intro s hs hnil
  rw [separated_bind_apply (fun b => (hitem b).forward) hs.eof_kind]
  exact (hdemands b).bind (hitem b).forward (forward_behindItem hitem hclosing) s hs hnil

include hclose

/-- A list of one item is taken. -/
lemma takes_list (hc : c) (b : β) : ∃ a ts, Takes (separated item b >>= close) a ts := by
  obtain ⟨b', ts, hts⟩ := (hitem b).takes hc
  obtain ⟨a, us, hus⟩ := takes_behindItem hclosing hclose hc hts
  have htakes := hts.bind hus
  cases ts with
  | nil => exact absurd hts ((hdemands b).not_takes_nil b')
  | cons t ts =>
    refine ⟨a, _, htakes.of_current fun s hs _ => ?_⟩
    exact separated_bind_apply (fun b => (hitem b).forward) hs.eof_kind

/-- **The items of a list**, with what closes it. If every item complains in time, then so does the
list.

**Proof sketch.** Induction on the number of tokens ahead. A list is an item and what stands behind
it; there, the token at hand tells whether the list goes on. -/
lemma guided_separated (b : β) : Guided c never (separated item b >>= close) := by
  have htakes := takes_list hitem hdemands hclosing hclose
  have hall := forward_list hitem hclosing
  refine ⟨hall b, fun hc => htakes hc b, fun hc s hs => ?_⟩
  induction hn : s.ahead.length using Nat.strongRecOn generalizing b s with
  | _ n ih =>
    subst hn
    have hsplit : Outcome never (item b >>= behindItem item close) s := by
      refine ((hitem b).outcome hc s hs).bind hs (hitem b).forward
        (forward_behindItem hitem hclosing)
        (fun b' ts hts => takes_behindItem hclosing hclose hc hts)
        fun b' ts hts hahead hready => ?_
      have hlength : (item b s).2.ahead.length ≤ s.ahead.length :=
        (hitem b).forward.length_le hs.eof_kind
      by_cases hcomma : (item b s).2.isAt [.mark .comma] = true
      · have hdemandsMark : Demands
            (expectMark .comma "','" >>= fun _ => separated item b' >>= close) :=
          (demands_expectMark _ _).bind (reads_expectMark _ _).forward fun _ => hall b'
        refine Outcome.of_current ?_ hdemandsMark.not_takes_nil fun s' _ hsame =>
          behindItem_of_comma (by rwa [Checker.isAt, hsame])
        refine ((guided_expectMark (c := c) _ _).outcome hc _ hready).bind hready
          (reads_expectMark _ _).forward (fun _ => hall b') (fun _ _ _ => htakes hc b')
          fun _ us hus hahead' hready' => ?_
        -- a comma has been passed
        obtain ⟨l, rfl⟩ := hus.reads (reads_expectMark _ _)
        refine ih _ ?_ b' _ hready' rfl
        have hlt := congrArg List.length hahead'
        simp only [List.length_append, List.length_singleton] at hlt
        omega
      · rw [Bool.not_eq_true] at hcomma
        refine ((hclose b b' ts hts).outcome hc _ hready).of_current
          (hclosing.demands b').not_takes_nil fun s' _ hsame => behindItem_of_not_comma ?_
        rwa [Checker.isAt, hsame]
    refine hsplit.of_current ?_ fun s' hs' _ =>
      separated_bind_apply (fun b => (hitem b).forward) hs'.eof_kind
    exact ((hdemands b).bind (hitem b).forward (forward_behindItem hitem hclosing)).not_takes_nil

/-- **A list that may be empty**, with what closes it. -/
lemma guided_listed {b : β} (hempty : Guided c never (close b)) :
    Guided c never (listed item b >>= close) := by
  have hlist := guided_separated hitem hdemands hclosing hclose b
  refine ⟨(forward_listed (fun b => (hitem b).forward) b).bind hclosing.forward, fun hc => ?_,
    fun hc s hs => ?_⟩
  · obtain ⟨l, a, us, hus⟩ := hclosing.takes (hempty.takes hc)
    refine ⟨a, _, hus.of_current fun s _ hcurrent => listed_of_closed ?_⟩
    simp [Checker.isAt, hcurrent]
  · by_cases h : s.isAt [.mark .closeBracket] = true
    · exact (hempty.outcome hc s hs).of_current (hclosing.demands b).not_takes_nil
        fun s' _ hsame => listed_of_closed (by rwa [Checker.isAt, hsame])
    · rw [Bool.not_eq_true] at h
      exact (hlist.outcome hc s hs).of_current
        (demands_list hitem hdemands hclosing b).not_takes_nil
        fun s' _ hsame => listed_of_open (by rwa [Checker.isAt, hsame])

end Guided

end List

end WorkflowLint.Check
