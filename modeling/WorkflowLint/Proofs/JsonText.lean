import WorkflowLint.Proofs.JsonReader

/-!
# JSON texts are read back

The text of a JSON value means that value, and so it is read as that value. Numbers are written by
their digits, strings character by character, and lists and records with one item per line; each of
these is a text that the grammar allows.

## Main results

* `WorkflowLint.Json.numeral_number`, `WorkflowLint.Json.spells_flatMap_charText` — the scalars.
* `WorkflowLint.Json.valueText_renderAt` — values of every kind, at every margin.
* `WorkflowLint.Json.means_render`, `WorkflowLint.Json.read?_render` — texts as a whole.
-/

set_option autoImplicit false

namespace WorkflowLint.Json

/-! ## Numbers -/

lemma digitsValue_toDigits (n : Nat) : digitsValue (Nat.toDigits 10 n) = n := by
  have hfold (cs : List Char) (k : Nat) :
      cs.foldl (fun n c => n * 10 + (c.toNat - '0'.toNat)) k = Nat.ofDigitChars 10 cs k := by
    simp only [Nat.ofDigitChars_eq_foldl, Nat.mul_comm]
  rw [digitsValue, hfold, Nat.ofDigitChars_ten_toDigits]

/-- The digits of a positive number do not start with a zero. -/
lemma head?_toDigits {n : Nat} (hn : 0 < n) : (Nat.toDigits 10 n).head? ≠ some '0' := by
  induction n using Nat.strongRecOn with
  | _ n ih =>
    by_cases hlt : n < 10
    · rw [Nat.toDigits_of_lt_base hlt]
      have hall : ∀ n < 10, 0 < n → [n.digitChar].head? ≠ some '0' := by decide
      exact hall n hlt hn
    · rw [Nat.toDigits_of_base_le (by decide) (Nat.le_of_not_lt hlt),
        List.head?_append, List.head?_eq_some_head Nat.toDigits_ne_nil, Option.some_or,
        ← List.head?_eq_some_head]
      exact ih (n / 10) (by omega) (by omega)

lemma isDigit_of_mem_toDigits {n : Nat} {c : Char} (h : c ∈ Nat.toDigits 10 n) :
    c.isDigit = true :=
  Nat.isDigit_of_mem_toDigits (by decide) (by decide) h

lemma toList_toString (n : Int) :
    (toString n).toList = (if n < 0 then ['-'] else []) ++ Nat.toDigits 10 n.natAbs := by
  cases n with
  | ofNat n =>
    have hn : ¬ Int.ofNat n < 0 := by simp
    rw [if_neg hn]
    exact Nat.toList_repr
  | negSucc n =>
    rw [if_pos (Int.negSucc_lt_zero n)]
    change ("-" ++ (n + 1).repr).toList = _
    rw [String.toList_append, Nat.toList_repr]
    rfl

/-- A number has the value of its digits, with its sign. -/
lemma signed_toDigits (n : Int) : signed (decide (n < 0)) (Nat.toDigits 10 n.natAbs) = n := by
  rw [signed, digitsValue_toDigits]
  split
  · rename_i h
    simp only [decide_eq_true_eq] at h
    omega
  · rename_i h
    simp only [decide_eq_true_eq] at h
    omega

/-- The digits of a number have no needless zeros. -/
lemma isWhole_toDigits (n : Nat) : IsWhole (Nat.toDigits 10 n) := by
  refine ⟨⟨Nat.toDigits_ne_nil, fun _ => isDigit_of_mem_toDigits⟩, fun hzero => ?_⟩
  obtain rfl | hn := Nat.eq_zero_or_pos n
  · rfl
  · exact absurd hzero (head?_toDigits hn)

/-- The sign of a number, in front of its digits. -/
lemma exists_sign_toString (plusAllowed : Bool) (n : Int) :
    ∃ sign, (sign, decide (n < 0)) ∈ signs plusAllowed ∧
      (toString n).toList = sign ++ Nat.toDigits 10 n.natAbs := by
  refine ⟨_, ?_, toList_toString n⟩
  by_cases hn : n < 0 <;> simp [signs, hn]

lemma numeral_number (n : Int) : Numeral (toString n).toList (.number n) := by
  obtain ⟨sign, hsign, hn⟩ := exists_sign_toString false n
  have hnumeral := Numeral.mk hsign (isWhole_toDigits n.natAbs) .absent .absent
  rw [numberOf, signed_toDigits] at hnumeral
  rw [hn]
  simpa using hnumeral

lemma numeral_decimal (digits exponent : Int) :
    Numeral ((toString digits).toList ++ 'e' :: (toString exponent).toList)
      (.decimal digits exponent) := by
  obtain ⟨sign, hsign, hdigits⟩ := exists_sign_toString false digits
  obtain ⟨sign', hsign', hexponent⟩ := exists_sign_toString true exponent
  have hpower := Exponent.present (.inl rfl) hsign' (isWhole_toDigits exponent.natAbs).1
  have hnumeral := Numeral.mk hsign (isWhole_toDigits digits.natAbs) .absent hpower
  rw [hdigits, hexponent]
  simpa [numberOf, signed_toDigits] using hnumeral

/-! ## Strings -/

lemma hexValue?_digitChar {d : Nat} (h : d < 16) : hexValue? d.digitChar = some d := by
  have hall : ∀ d < 16, hexValue? d.digitChar = some d := by decide
  exact hall d h

/-- Hexadecimal digits have the value of their number. -/
lemma hexNumber?_toDigits (n : Nat) : hexNumber? (Nat.toDigits 16 n) = some n := by
  induction n using Nat.strongRecOn with
  | _ n ih =>
    by_cases hlt : n < 16
    · simp [hexNumber?, Nat.toDigits_of_lt_base hlt, hexValue?_digitChar hlt]
    · have hlast := hexValue?_digitChar (Nat.mod_lt n (by decide : 0 < 16))
      have hn : n / 16 * 16 + n % 16 = n := by omega
      rw [Nat.toDigits_of_base_le (by decide) (Nat.le_of_not_lt hlt), hexNumber?,
        List.foldlM_append, ← hexNumber?, ih (n / 16) (by omega)]
      simp [hlast, hn]

/-- Leading zeros do not count. -/
lemma hexNumber?_replicate_append (k : Nat) (cs : List Char) :
    hexNumber? (List.replicate k '0' ++ cs) = hexNumber? cs := by
  induction k with
  | zero => rfl
  | succ k ih => exact ih

lemma length_hexDigits {n : Nat} (h : n < 0x10000) : (Text.hexDigits 4 n).length = 4 := by
  have hlength : (Nat.toDigits 16 n).length ≤ 4 :=
    (Nat.length_toDigits_le_iff (by decide) (by decide)).2 h
  simp only [Text.hexDigits, List.length_append, List.length_replicate]
  omega

/-- The escape of a code unit, in front of what is written behind it. -/
lemma Written.unitEscape {n : Nat} (hn : n < 0x10000) {text : List Char} {pieces : List Piece}
    (h : Written text pieces) : Written (unitEscape n ++ text) (.unit n :: pieces) := by
  have hvalue : hexNumber? (Text.hexDigits 4 n) = some n := by
    rw [Text.hexDigits, hexNumber?_replicate_append, hexNumber?_toDigits]
  exact .unit (length_hexDigits hn) hvalue h

/-- A character that is named by a letter, in front of others. -/
lemma Spells.letter {l c : Char} {text cs : List Char} (hl : (l, c) ∈ escapes)
    (h : Spells text cs) : Spells ('\\' :: l :: text) (c :: cs) := by
  obtain ⟨pieces, hwritten, hjoined⟩ := h
  exact ⟨_, .letter hl hwritten, .char c hjoined⟩

/-- How a character is written between quotes stands for that character, in front of others.

**Proof sketch.** One case for each way of writing characters. -/
lemma Spells.charText_append {text cs : List Char} (h : Spells text cs) (c : Char) :
    Spells (charText c ++ text) (c :: cs) := by
  have hvalid : c.toNat < 0xD800 ∨ 0xDFFF < c.toNat ∧ c.toNat < 0x110000 := c.valid
  have hnamed (l : Char) (hl : (l, c) ∈ escapes) : Spells (['\\', l] ++ text) (c :: cs) :=
    h.letter hl
  obtain ⟨pieces, hwritten, hjoined⟩ := h
  fun_cases charText c with
  | case1 hc => exact hnamed _ (by simp [escapes, beq_iff_eq.1 hc])
  | case2 _ hc => exact hnamed _ (by simp [escapes, beq_iff_eq.1 hc])
  | case3 _ _ hc => exact hnamed _ (by simp [escapes, beq_iff_eq.1 hc])
  | case4 _ _ _ hc => exact hnamed _ (by simp [escapes, beq_iff_eq.1 hc])
  | case5 _ _ _ _ hc => exact hnamed _ (by simp [escapes, beq_iff_eq.1 hc])
  | case6 _ _ _ _ _ hc => exact hnamed _ (by simp [escapes, beq_iff_eq.1 hc])
  | case7 _ _ _ _ _ _ hc => exact hnamed _ (by simp [escapes, beq_iff_eq.1 hc])
  | case8 hquote hescape _ _ _ _ _ hplain =>
    rw [Bool.and_eq_true, decide_eq_true_eq, decide_eq_true_eq] at hplain
    exact ⟨_, .plain (by simpa using hquote) (by simpa using hescape) hplain.1 hwritten,
      .char c hjoined⟩
  | case9 _ _ _ _ _ _ _ _ hunit => exact ⟨_, hwritten.unitEscape hunit, .unit hunit hjoined⟩
  | case10 _ _ _ _ _ _ _ _ hunit =>
    rw [List.append_assoc]
    exact ⟨_, (hwritten.unitEscape (by omega)).unitEscape (by omega),
      .halves (Nat.le_of_not_lt hunit) hjoined⟩

lemma spells_flatMap_charText (cs : List Char) : Spells (cs.flatMap charText) cs := by
  induction cs with
  | nil => exact ⟨[], .nil, .nil⟩
  | cons c cs ih => exact ih.charText_append c

/-! ## Values -/

lemma isBlank_newline (margin : Nat) : IsBlank (newline margin) := by
  intro c hc
  obtain rfl | hc := List.mem_cons.1 hc
  · simp
  · simp [List.eq_of_mem_replicate hc]

/-- The text of a field, on a line of its own. -/
lemma fieldText_of_valueText (margin : Nat) (key : String) {text after : List Char} {v : Json}
    (h : ValueText text v) (hafter : IsBlank after) : FieldText
      (newline margin ++ (quotedText key ++ (':' :: ' ' :: (text ++ after)))) (key, v) := by
  have hblank : IsBlank [' '] := by simp [IsBlank]
  have hfield := FieldText.mk (isBlank_newline margin) (spells_flatMap_charText key.toList)
    isBlank_nil (.mk hblank h hafter)
  simpa [quotedText] using hfield

mutual

/-- The text of a value is a text of that value. -/
lemma valueText_renderAt (margin : Nat) : ∀ v, ValueText (renderAt margin v) v
  | .null => .null
  | .truth true => .isTrue
  | .truth false => .isFalse
  | .number n => .number (numeral_number n)
  | .decimal digits exponent => .number (by simpa [renderAt] using numeral_decimal digits exponent)
  | .text s => by
    have htext := ValueText.text (spells_flatMap_charText s.toList)
    simpa [renderAt, quotedText] using htext
  | .list [] => .emptyList isBlank_nil
  | .list (item :: items) => by
    have hitem := valueText_renderAt (margin + 2) item
    have hitems := separated_renderItems (margin + 2) margin hitem items
    simpa [renderAt] using ValueText.list hitems
  | .record [] => .emptyRecord isBlank_nil
  | .record ((key, v) :: fields) => by
    have hv := valueText_renderAt (margin + 2) v
    have hfields := separated_renderFields (margin + 2) margin key hv fields
    simpa [renderAt] using ValueText.record hfields

/-- The texts of items, each on a line of its own. -/
lemma separated_renderItems (margin outer : Nat) {first : Json}
    (hfirst : ValueText (renderAt margin first) first) : ∀ items, Separated PaddedText
      (newline margin ++ (renderAt margin first ++ (renderItems margin items ++ newline outer)))
      (first :: items)
  | [] => .last (.mk (isBlank_newline margin) hfirst (isBlank_newline outer))
  | item :: items => by
    have hitem := valueText_renderAt margin item
    have hitems := separated_renderItems margin outer hitem items
    have hpadded := PaddedText.mk (isBlank_newline margin) hfirst isBlank_nil
    simpa [renderItems] using Separated.more hpadded hitems

/-- The texts of fields, each on a line of its own. -/
lemma separated_renderFields (margin outer : Nat) (key : String) {first : Json}
    (hfirst : ValueText (renderAt margin first) first) : ∀ fields, Separated FieldText
      (newline margin ++ (quotedText key ++ (':' :: ' ' :: (renderAt margin first ++
        (renderFields margin fields ++ newline outer))))) ((key, first) :: fields)
  | [] => by
    have hfield := fieldText_of_valueText margin key hfirst (isBlank_newline outer)
    simpa [renderFields] using Separated.last hfield
  | (next, v) :: fields => by
    have hv := valueText_renderAt margin v
    have hfields := separated_renderFields margin outer next hv fields
    have hfield := fieldText_of_valueText margin key hfirst isBlank_nil
    simpa [renderFields] using Separated.more hfield hfields

end

/-- **The text of a value means that value**, also with blank space behind it. -/
lemma means_render (v : Json) {blanks : String} (hblanks : IsBlank blanks.toList) :
    Means (v.render ++ blanks) v := by
  rw [Means, String.toList_append, render, String.toList_ofList]
  exact .mk isBlank_nil (valueText_renderAt 0 v) hblanks

/-- **The text of a value is read as that value**, also with blank space behind it. -/
theorem read?_render (v : Json) {blanks : String} (hblanks : skipSpace blanks.toList = []) :
    read? (v.render ++ blanks) = some v := by
  obtain ⟨blank, hblank, heq⟩ := exists_blank blanks.toList
  rw [hblanks, List.append_nil] at heq
  exact read?_eq_some_iff.2 (means_render v (heq ▸ hblank))

end WorkflowLint.Json
