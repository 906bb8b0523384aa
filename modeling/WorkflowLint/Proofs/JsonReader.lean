import WorkflowLint.Proofs.JsonGrammar

/-!
# The reader of JSON follows the grammar

A text is read as a value exactly if it means that value. The readers of values, items and fields
call each other with a bound that gets smaller; what the grammar allows is short enough for the
bound, and whatever is read with any bound is allowed by the grammar. As a reader has one answer,
a text means one value at most.

## Main definitions

* `WorkflowLint.Json.ReadsTexts` — with some bound, what the grammar allows is read.
* `WorkflowLint.Json.ReadsOnlyTexts` — with some bound, nothing else is read.

## Main results

* `WorkflowLint.Json.readsTexts`, `WorkflowLint.Json.readsOnlyTexts` — this is so for every bound.
* `WorkflowLint.Json.read?_eq_some_iff` — what is read is what is meant.
-/

set_option autoImplicit false

namespace WorkflowLint.Json

/-! ## Blank space -/

lemma isSpace_iff {c : Char} : isSpace c = true ↔ c ∈ [' ', '\n', '\r', '\t'] := by
  simp [isSpace, or_assoc]

lemma skipSpace_append {blank : List Char} (h : IsBlank blank) (cs : List Char) :
    skipSpace (blank ++ cs) = skipSpace cs :=
  List.dropWhile_append_of_pos fun c hc => isSpace_iff.2 (h c hc)

lemma skipSpace_cons {c : Char} (h : isSpace c = false) (cs : List Char) :
    skipSpace (c :: cs) = c :: cs := by
  rw [skipSpace, List.dropWhile_cons_of_neg (by simp [h])]

/-- A quote, a bracket or a separator is no blank space. -/
lemma skipSpace_mark {c : Char} (h : c ∈ ['"', ':', ',', '[', ']', '\x7b', '\x7d'])
    (cs : List Char) : skipSpace (c :: cs) = c :: cs := by
  have hall : ∀ c ∈ ['"', ':', ',', '[', ']', '\x7b', '\x7d'], isSpace c = false := by
    simp [isSpace]
  exact skipSpace_cons (hall c h) cs

/-- Every text starts with some blank space, which is skipped. -/
lemma exists_blank (cs : List Char) : ∃ blank, IsBlank blank ∧ cs = blank ++ skipSpace cs :=
  ⟨cs.takeWhile isSpace, fun _ hc => isSpace_iff.1 (List.mem_takeWhile_imp hc),
    List.takeWhile_append_dropWhile.symm⟩

lemma readValue?_blank {blank : List Char} (h : IsBlank blank) (fuel : Nat) (cs : List Char) :
    readValue? fuel (blank ++ cs) = readValue? fuel cs := by
  cases fuel with
  | zero => rw [readValue?, readValue?]
  | succ fuel => rw [readValue?, readValue?, skipSpace_append h]

lemma readItems?_blank {blank : List Char} (h : IsBlank blank) (fuel : Nat) (cs : List Char) :
    readItems? fuel (blank ++ cs) = readItems? fuel cs := by
  cases fuel with
  | zero => rw [readItems?, readItems?]
  | succ fuel => rw [readItems?, readItems?, readValue?_blank h]

lemma readFields?_blank {blank : List Char} (h : IsBlank blank) (fuel : Nat) (cs : List Char) :
    readFields? fuel (blank ++ cs) = readFields? fuel cs := by
  cases fuel with
  | zero => rw [readFields?, readFields?]
  | succ fuel => rw [readFields?, readFields?, skipSpace_append h]

/-! ## Values are read -/

/-- Can a number start with this character? -/
def startsNumber (c : Char) : Bool := c.isDigit || c == '-'

lemma ne_of_startsNumber {c d : Char} (hc : startsNumber c = true) (hd : startsNumber d = false) :
    c ≠ d := by
  rintro rfl
  simp [hc] at hd

lemma isSpace_of_startsNumber {c : Char} (h : startsNumber c = true) : isSpace c = false := by
  have hspace := ne_of_startsNumber (d := ' ') h (by decide)
  have hfeed := ne_of_startsNumber (d := '\n') h (by decide)
  have hreturn := ne_of_startsNumber (d := '\r') h (by decide)
  have htab := ne_of_startsNumber (d := '\t') h (by decide)
  simp [isSpace, hspace, hfeed, hreturn, htab]

lemma Numeral.exists_cons {text : List Char} {v : Json} (h : Numeral text v) :
    ∃ c cs, text = c :: cs ∧ startsNumber c = true := by
  obtain @⟨sign, whole, point, power, negative, fraction, exponent, hsign, hwhole, -, -⟩ := h
  obtain ⟨d, ds, rfl⟩ := List.exists_cons_of_ne_nil hwhole.1.1
  have hd : startsNumber d = true := by simp [startsNumber, hwhole.1.2 d List.mem_cons_self]
  obtain rfl | rfl : sign = [] ∨ sign = ['-'] := by
    have hsign' : sign = [] ∧ negative = false ∨ sign = ['-'] ∧ negative = true := by
      simpa [signs] using hsign
    exact hsign'.imp And.left And.left
  · exact ⟨d, _, rfl, hd⟩
  · exact ⟨'-', _, rfl, rfl⟩

/-- What starts like a number is read as a number. -/
lemma readValue?_of_startsNumber {c : Char} (h : startsNumber c = true) (fuel : Nat)
    (cs : List Char) : readValue? (fuel + 1) (c :: cs) = readNumber? (c :: cs) := by
  rw [readValue?, skipSpace_cons (isSpace_of_startsNumber h)]
  split
  -- The last alternative is the one for numbers; the others start with a character of their own.
  case h_7 => rfl
  all_goals
    rename_i heq
    exact absurd (List.cons.inj heq).1 (ne_of_startsNumber h (by decide))

/-- A value starts with none of the characters that a reader looks for first. -/
lemma ValueText.exists_cons {text : List Char} {v : Json} (h : ValueText text v) :
    ∃ c cs, text = c :: cs ∧ isSpace c = false ∧ c ≠ ']' := by
  cases h with
  | number h =>
    obtain ⟨c, cs, rfl, hc⟩ := h.exists_cons
    exact ⟨c, cs, rfl, isSpace_of_startsNumber hc, ne_of_startsNumber hc (by decide)⟩
  | _ => exact ⟨_, _, rfl, by decide⟩

lemma Separated.head {α : Type} {P : List Char → α → Prop} {text : List Char} {as : List α}
    (h : Separated P text as) : ∃ first rest a, text = first ++ rest ∧ P first a := by
  cases h with
  | @last text a h => exact ⟨text, [], a, by simp, h⟩
  | more h _ => exact ⟨_, _, _, rfl, h⟩

/-- Reading a list with items. -/
lemma readValue?_list {text : List Char} {items : List Json} (h : Separated PaddedText text items)
    (fuel : Nat) (rest : List Char) : readValue? (fuel + 1) ('[' :: (text ++ rest)) =
      (readItems? fuel (text ++ rest)).map fun (items, rest) => (.list items, rest) := by
  obtain ⟨_, more, v, rfl, ⟨hbefore, hv, hafter⟩⟩ := h.head
  obtain ⟨c, cs, rfl, hspace, hbracket⟩ := hv.exists_cons
  have hspace := skipSpace_cons hspace
  simp only [List.append_assoc, readItems?_blank hbefore]
  rw [readValue?, skipSpace_mark (by simp)]
  simp only [skipSpace_append hbefore, List.cons_append, hspace]
  split
  · rename_i heq
    exact absurd (List.cons.inj heq).1 hbracket
  · rfl

/-- Reading a record with fields. -/
lemma readValue?_record {text : List Char} {fields : List (String × Json)}
    (h : Separated FieldText text fields) (fuel : Nat) (rest : List Char) :
    readValue? (fuel + 1) ('\x7b' :: (text ++ rest)) =
      (readFields? fuel (text ++ rest)).map fun (fields, rest) => (.record fields, rest) := by
  obtain ⟨_, more, field, rfl, ⟨hbefore, hkey, hbehind, hv⟩⟩ := h.head
  simp only [List.append_assoc, readFields?_blank hbefore]
  rw [readValue?, skipSpace_mark (by simp)]
  simp only [skipSpace_append hbefore, List.cons_append, skipSpace_mark (c := '"') (by simp)]
  rfl

/-- Blank space ends a number, and so does what may follow it behind a value. -/
lemma endsNumber_append {blank cs : List Char} (h : IsBlank blank)
    (hcs : ∀ c ∈ cs.head?, c ∈ [',', ']', '\x7d']) : EndsNumber (blank ++ cs) := by
  have hall : ∀ d ∈ [' ', '\n', '\r', '\t'] ++ [',', ']', '\x7d'],
      d.isDigit = false ∧ d ≠ '.' ∧ d ≠ 'e' ∧ d ≠ 'E' := by simp
  intro d hd
  refine hall d (List.mem_append.2 ?_)
  cases blank with
  | nil => exact .inr (hcs d hd)
  | cons b blank => exact .inl (Option.some.inj hd ▸ h b List.mem_cons_self)

/-- With the given bound, everything is read that is short enough: a value in front of whatever
ends a number, and items and fields up to the closing bracket. Whatever is begun costs one unit of
the bound, and has a character that pays for two. -/
structure ReadsTexts (fuel : Nat) : Prop where
  value {text : List Char} {v : Json} (h : ValueText text v) (rest : List Char) :
    2 * text.length ≤ fuel → EndsNumber rest → readValue? fuel (text ++ rest) = some (v, rest)
  items {text : List Char} {items : List Json} (h : Separated PaddedText text items)
    (rest : List Char) :
    2 * text.length < fuel → readItems? fuel (text ++ ']' :: rest) = some (items, rest)
  fields {text : List Char} {fields : List (String × Json)} (h : Separated FieldText text fields)
    (rest : List Char) :
    2 * text.length < fuel → readFields? fuel (text ++ '\x7d' :: rest) = some (fields, rest)

namespace ReadsTexts

variable {fuel : Nat} (h : ReadsTexts fuel)
include h

/-- A value is read if what is in it is. -/
lemma value_succ {text : List Char} {v : Json} (hv : ValueText text v) (rest : List Char)
    (hfuel : 2 * text.length ≤ fuel + 1) (hrest : EndsNumber rest) :
    readValue? (fuel + 1) (text ++ rest) = some (v, rest) := by
  cases hv with
  | null => rfl
  | isTrue => rfl
  | isFalse => rfl
  | number hv =>
    obtain ⟨c, cs, rfl, hc⟩ := hv.exists_cons
    exact (readValue?_of_startsNumber hc fuel (cs ++ rest)).trans (hv.readNumber?_append hrest)
  | text hs =>
    rw [List.cons_append, readValue?, skipSpace_mark (by simp)]
    simp [hs.readString?_append]
  | emptyList hblank =>
    rw [List.cons_append, readValue?, skipSpace_mark (by simp)]
    simp [skipSpace_append hblank, skipSpace_mark]
  | list hitems =>
    simp only [List.length_cons, List.length_append] at hfuel
    have hread := h.items hitems rest (by omega)
    simp [readValue?_list hitems, hread]
  | emptyRecord hblank =>
    rw [List.cons_append, readValue?, skipSpace_mark (by simp)]
    simp [skipSpace_append hblank, skipSpace_mark]
  | record hfields =>
    simp only [List.length_cons, List.length_append] at hfuel
    have hread := h.fields hfields rest (by omega)
    simp [readValue?_record hfields, hread]

/-- A value with blank space around it is read up to its end. -/
lemma padded {text : List Char} {v : Json} (hv : PaddedText text v) {c : Char}
    (hc : c ∈ [',', ']', '\x7d']) (cs : List Char) (hfuel : 2 * text.length ≤ fuel) :
    ∃ after, IsBlank after ∧ readValue? fuel (text ++ c :: cs) = some (v, after ++ c :: cs) := by
  obtain @⟨before, text, after, v, hbefore, hv, hafter⟩ := hv
  refine ⟨after, hafter, ?_⟩
  rw [List.append_assoc, List.append_assoc, readValue?_blank hbefore]
  simp only [List.length_append] at hfuel
  exact h.value hv _ (by omega) (endsNumber_append hafter (by simpa using hc))

/-- Items are read one after the other. -/
lemma items_succ {text : List Char} {items : List Json} (hitems : Separated PaddedText text items)
    (rest : List Char) (hfuel : 2 * text.length < fuel + 1) :
    readItems? (fuel + 1) (text ++ ']' :: rest) = some (items, rest) := by
  cases hitems with
  | last hv =>
    obtain ⟨after, hafter, hread⟩ := h.padded hv (c := ']') (by simp) rest (by omega)
    rw [readItems?, hread]
    simp [skipSpace_append hafter, skipSpace_mark]
  | more hv hmore =>
    simp only [List.length_append, List.length_cons] at hfuel
    obtain ⟨after, hafter, hread⟩ := h.padded hv (c := ',') (by simp) (_ ++ ']' :: rest) (by omega)
    have hnext := h.items hmore rest (by omega)
    rw [List.append_assoc, List.cons_append, readItems?, hread]
    simp [skipSpace_append hafter, skipSpace_mark, hnext]

/-- A field is read, and what follows it. -/
lemma field_succ {text : List Char} {field : String × Json} (hfield : FieldText text field)
    (cs : List Char) (hfuel : 2 * text.length < fuel + 1) :
    readFields? (fuel + 1) (text ++ '\x7d' :: cs) = some ([field], cs) ∧
      readFields? (fuel + 1) (text ++ ',' :: cs) =
        (readFields? fuel cs).map fun (fields, rest) => (field :: fields, rest) := by
  obtain @⟨before, key, ks, behind, text, v, hbefore, hkey, hbehind, hv⟩ := hfield
  simp only [List.length_append, List.length_cons] at hfuel
  have hquote (cs : List Char) : skipSpace ('"' :: cs) = '"' :: cs := skipSpace_mark (by simp) cs
  have hcolon (cs : List Char) : skipSpace (':' :: cs) = ':' :: cs := skipSpace_mark (by simp) cs
  constructor
  · obtain ⟨after, hafter, hread⟩ := h.padded hv (c := '\x7d') (by simp) cs (by omega)
    simp only [readFields?, List.append_assoc, List.cons_append, skipSpace_append hbefore, hquote,
      hkey.readString?_append, Option.bind_eq_bind, Option.bind_some, skipSpace_append hbehind,
      hcolon, hread, skipSpace_append hafter, skipSpace_mark (c := '\x7d') (by simp)]
    rfl
  · obtain ⟨after, hafter, hread⟩ := h.padded hv (c := ',') (by simp) cs (by omega)
    simp only [readFields?, List.append_assoc, List.cons_append, skipSpace_append hbefore, hquote,
      hkey.readString?_append, Option.bind_eq_bind, Option.bind_some, skipSpace_append hbehind,
      hcolon, hread, skipSpace_append hafter, skipSpace_mark (c := ',') (by simp)]
    cases readFields? fuel cs <;> rfl

/-- Fields are read one after the other. -/
lemma fields_succ {text : List Char} {fields : List (String × Json)}
    (hfields : Separated FieldText text fields) (rest : List Char)
    (hfuel : 2 * text.length < fuel + 1) :
    readFields? (fuel + 1) (text ++ '\x7d' :: rest) = some (fields, rest) := by
  cases hfields with
  | last hfield => exact (h.field_succ hfield rest hfuel).1
  | more hfield hmore =>
    simp only [List.length_append, List.length_cons] at hfuel
    rw [List.append_assoc, List.cons_append, (h.field_succ hfield _ (by omega)).2,
      h.fields hmore rest (by omega)]
    rfl

end ReadsTexts

/-- Everything that is short enough for the bound is read.

**Proof sketch.** Induction on the bound; each reader leaves one unit less to the readers that it
calls. -/
lemma readsTexts (fuel : Nat) : ReadsTexts fuel := by
  induction fuel with
  | zero =>
    refine ⟨fun h rest hfuel => ?_, fun _ _ hfuel => absurd hfuel (by omega),
      fun _ _ hfuel => absurd hfuel (by omega)⟩
    obtain ⟨c, cs, rfl, -⟩ := h.exists_cons
    simp at hfuel
  | succ fuel ih =>
    exact ⟨fun h => ih.value_succ h, fun h => ih.items_succ h, fun h => ih.fields_succ h⟩

/-! ## What is read is in the grammar -/

lemma eq_of_readWord? {word : String} {v w : Json} {cs rest : List Char}
    (h : readWord? word v cs = some (w, rest)) : cs = word.toList ++ rest ∧ w = v := by
  unfold readWord? at h
  split at h
  · rename_i hprefix
    obtain ⟨rest', hrest'⟩ := List.isPrefixOf_iff_prefix.1 hprefix
    obtain ⟨rfl, rfl⟩ := Prod.mk.inj (Option.some.inj h)
    rw [← hrest', ← String.length_toList, List.drop_left]
    exact ⟨rfl, rfl⟩
  · cases h

lemma PaddedText.blank_append {blank text : List Char} {v : Json} (h : PaddedText text v)
    (hblank : IsBlank blank) : PaddedText (blank ++ text) v := by
  obtain ⟨hbefore, hv, hafter⟩ := h
  rw [← List.append_assoc]
  exact .mk (List.forall_mem_append.2 ⟨hblank, hbefore⟩) hv hafter

lemma FieldText.blank_append {blank text : List Char} {field : String × Json}
    (h : FieldText text field) (hblank : IsBlank blank) : FieldText (blank ++ text) field := by
  obtain ⟨hbefore, hkey, hbehind, hv⟩ := h
  rw [← List.append_assoc]
  exact .mk (List.forall_mem_append.2 ⟨hblank, hbefore⟩) hkey hbehind hv

lemma Separated.blank_append {α : Type} {P : List Char → α → Prop} {blank text : List Char}
    {as : List α} (h : Separated P text as)
    (hP : ∀ {text a}, P text a → P (blank ++ text) a) : Separated P (blank ++ text) as := by
  cases h with
  | last h => exact .last (hP h)
  | more h hrest =>
    rw [← List.append_assoc]
    exact .more (hP h) hrest

/-- Whatever is read with the given bound is in the grammar, and so are the items and the fields up
to the closing bracket. -/
structure ReadsOnlyTexts (fuel : Nat) : Prop where
  value {cs rest : List Char} {v : Json} (h : readValue? fuel cs = some (v, rest)) :
    ∃ before text, cs = before ++ (text ++ rest) ∧ IsBlank before ∧ ValueText text v
  items {cs rest : List Char} {items : List Json} (h : readItems? fuel cs = some (items, rest)) :
    ∃ text, cs = text ++ ']' :: rest ∧ Separated PaddedText text items
  fields {cs rest : List Char} {fields : List (String × Json)}
    (h : readFields? fuel cs = some (fields, rest)) :
    ∃ text, cs = text ++ '\x7d' :: rest ∧ Separated FieldText text fields

namespace ReadsOnlyTexts

variable {fuel : Nat} (h : ReadsOnlyTexts fuel)
include h

/-- What is read behind the opening bracket of a list. -/
lemma list_succ {cs rest : List Char} {v : Json}
    (hread : (match skipSpace cs with
      | ']' :: cs => some (.list [], cs)
      | cs => (readItems? fuel cs).map fun (items, rest) => (.list items, rest)) = some (v, rest)) :
    ∃ text, '[' :: cs = text ++ rest ∧ ValueText text v := by
  obtain ⟨blank, hblank, hcs⟩ := exists_blank cs
  split at hread
  · rename_i cs' heq
    obtain ⟨rfl, rfl⟩ := Prod.mk.inj (Option.some.inj hread)
    rw [heq] at hcs
    exact ⟨'[' :: (blank ++ [']']), by simp [hcs], .emptyList hblank⟩
  · obtain ⟨⟨items, rest'⟩, hitems, heq⟩ := Option.map_eq_some_iff.1 hread
    obtain ⟨rfl, rfl⟩ := Prod.mk.inj heq
    obtain ⟨text, htext, hitems⟩ := h.items hitems
    rw [htext] at hcs
    exact ⟨'[' :: ((blank ++ text) ++ [']']), by simp [hcs],
      .list (hitems.blank_append fun h => h.blank_append hblank)⟩

/-- What is read behind the opening brace of a record. -/
lemma record_succ {cs rest : List Char} {v : Json}
    (hread : (match skipSpace cs with
      | '\x7d' :: cs => some (.record [], cs)
      | cs => (readFields? fuel cs).map fun (fields, rest) => (.record fields, rest)) =
        some (v, rest)) :
    ∃ text, '\x7b' :: cs = text ++ rest ∧ ValueText text v := by
  obtain ⟨blank, hblank, hcs⟩ := exists_blank cs
  split at hread
  · rename_i cs' heq
    obtain ⟨rfl, rfl⟩ := Prod.mk.inj (Option.some.inj hread)
    rw [heq] at hcs
    exact ⟨'\x7b' :: (blank ++ ['\x7d']), by simp [hcs], .emptyRecord hblank⟩
  · obtain ⟨⟨fields, rest'⟩, hfields, heq⟩ := Option.map_eq_some_iff.1 hread
    obtain ⟨rfl, rfl⟩ := Prod.mk.inj heq
    obtain ⟨text, htext, hfields⟩ := h.fields hfields
    rw [htext] at hcs
    exact ⟨'\x7b' :: ((blank ++ text) ++ ['\x7d']), by simp [hcs],
      .record (hfields.blank_append fun h => h.blank_append hblank)⟩

/-- A value that is read is in the grammar if what is in it is. -/
lemma value_succ {cs rest : List Char} {v : Json}
    (hread : readValue? (fuel + 1) cs = some (v, rest)) :
    ∃ before text, cs = before ++ (text ++ rest) ∧ IsBlank before ∧ ValueText text v := by
  obtain ⟨before, hbefore, hcs⟩ := exists_blank cs
  suffices hvalue : ∃ text, skipSpace cs = text ++ rest ∧ ValueText text v by
    obtain ⟨text, htext, hv⟩ := hvalue
    exact ⟨before, text, by rw [← htext, ← hcs], hbefore, hv⟩
  unfold readValue? at hread
  split at hread
  case h_1 cs' heq =>
    obtain ⟨⟨s, rest'⟩, hstring, hpair⟩ := Option.map_eq_some_iff.1 hread
    obtain ⟨rfl, rfl⟩ := Prod.mk.inj hpair
    obtain ⟨text, ks, rfl, rfl, hs⟩ := exists_spells_of_readString? hstring
    exact ⟨'"' :: (text ++ ['"']), by simp [heq], .text hs⟩
  case h_2 cs' heq => exact heq ▸ h.list_succ hread
  case h_3 cs' heq => exact heq ▸ h.record_succ hread
  case h_4 cs' heq =>
    obtain ⟨hword, rfl⟩ := eq_of_readWord? hread
    exact ⟨_, heq.trans hword, .null⟩
  case h_5 cs' heq =>
    obtain ⟨hword, rfl⟩ := eq_of_readWord? hread
    exact ⟨_, heq.trans hword, .isTrue⟩
  case h_6 cs' heq =>
    obtain ⟨hword, rfl⟩ := eq_of_readWord? hread
    exact ⟨_, heq.trans hword, .isFalse⟩
  case h_7 =>
    obtain ⟨text, htext, hv⟩ := exists_numeral_of_readNumber? hread
    exact ⟨text, htext, .number hv⟩

/-- A value that is read is in the grammar together with the blank space around it. -/
lemma padded {cs rest : List Char} {v : Json} (hread : readValue? fuel cs = some (v, rest)) :
    ∃ text, cs = text ++ skipSpace rest ∧ PaddedText text v := by
  obtain ⟨before, text, rfl, hbefore, hv⟩ := h.value hread
  obtain ⟨after, hafter, hrest⟩ := exists_blank rest
  refine ⟨_, ?_, .mk hbefore hv hafter⟩
  rw [List.append_assoc, List.append_assoc, ← hrest]

/-- Items that are read are in the grammar. -/
lemma items_succ {cs rest : List Char} {items : List Json}
    (hread : readItems? (fuel + 1) cs = some (items, rest)) :
    ∃ text, cs = text ++ ']' :: rest ∧ Separated PaddedText text items := by
  rw [readItems?] at hread
  obtain ⟨⟨item, cs'⟩, hitem, hread'⟩ := Option.bind_eq_some_iff.1 hread
  obtain ⟨text, rfl, hv⟩ := h.padded hitem
  simp only at hread'
  split at hread'
  · rename_i cs'' heq
    obtain ⟨⟨more, rest'⟩, hitems, hpair⟩ := Option.bind_eq_some_iff.1 hread'
    obtain ⟨rfl, rfl⟩ := Prod.mk.inj (Option.some.inj hpair)
    obtain ⟨text', rfl, hmore⟩ := h.items hitems
    exact ⟨text ++ ',' :: text', by simp [heq], .more hv hmore⟩
  · rename_i cs'' heq
    obtain ⟨rfl, rfl⟩ := Prod.mk.inj (Option.some.inj hread')
    exact ⟨_, by rw [heq], .last hv⟩
  · cases hread'

/-- Fields that are read are in the grammar. -/
lemma fields_succ {cs rest : List Char} {fields : List (String × Json)}
    (hread : readFields? (fuel + 1) cs = some (fields, rest)) :
    ∃ text, cs = text ++ '\x7d' :: rest ∧ Separated FieldText text fields := by
  obtain ⟨before, hbefore, hcs⟩ := exists_blank cs
  unfold readFields? at hread
  split at hread
  · rename_i cs' heq
    rw [heq] at hcs
    obtain ⟨⟨key, keyRest⟩, hstring, hread'⟩ := Option.bind_eq_some_iff.1 hread
    obtain ⟨keyText, ks, rfl, rfl, hkey⟩ := exists_spells_of_readString? hstring
    obtain ⟨behind, hbehind, hkeyRest⟩ := exists_blank keyRest
    simp only at hread'
    split at hread'
    · rename_i valueRest heq'
      rw [heq'] at hkeyRest
      obtain ⟨⟨v, cs''⟩, hvalue, hread''⟩ := Option.bind_eq_some_iff.1 hread'
      obtain ⟨text, rfl, hv⟩ := h.padded hvalue
      have hfield : FieldText _ (String.ofList ks, v) := .mk hbefore hkey hbehind hv
      simp only at hread''
      split at hread''
      · rename_i moreRest heq''
        obtain ⟨⟨more, rest'⟩, hfields, hpair⟩ := Option.bind_eq_some_iff.1 hread''
        obtain ⟨rfl, rfl⟩ := Prod.mk.inj (Option.some.inj hpair)
        obtain ⟨text', rfl, hmore⟩ := h.fields hfields
        exact ⟨_ ++ ',' :: text', by simp [hcs, hkeyRest, heq''], .more hfield hmore⟩
      · rename_i rest' heq''
        obtain ⟨rfl, rfl⟩ := Prod.mk.inj (Option.some.inj hread'')
        exact ⟨_, by simp [hcs, hkeyRest, heq''], .last hfield⟩
      · cases hread''
    · cases hread'
  · cases hread

end ReadsOnlyTexts

/-- Only what is in the grammar is read. -/
lemma readsOnlyTexts (fuel : Nat) : ReadsOnlyTexts fuel := by
  induction fuel with
  | zero =>
    exact ⟨fun h => by simp [readValue?] at h, fun h => by simp [readItems?] at h,
      fun h => by simp [readFields?] at h⟩
  | succ fuel ih => exact ⟨ih.value_succ, ih.items_succ, ih.fields_succ⟩

/-- **The reader and the grammar agree**: a text is read as a value exactly if it means that value.

**Proof sketch.** Both directions are inductions on the bound of the readers. Behind the value there
is blank space only, which ends a number, and the whole text is short enough for the bound that the
reader starts with. -/
theorem read?_eq_some_iff {s : String} {v : Json} : read? s = some v ↔ Means s v := by
  constructor
  · intro h
    obtain ⟨⟨w, rest⟩, hread, h⟩ := Option.bind_eq_some_iff.1 h
    obtain ⟨text, htext, hv⟩ := (readsOnlyTexts _).padded hread
    simp only at h
    split at h
    · rename_i hrest
      obtain rfl := Option.some.inj h
      rw [Means, htext, List.isEmpty_iff.1 hrest, List.append_nil]
      exact hv
    · cases h
  · intro h
    rw [Means] at h
    have hlength : s.length = s.toList.length := String.length_toList.symm
    rw [read?, hlength]
    generalize s.toList = cs at h
    obtain @⟨before, text, after, v, hbefore, hv, hafter⟩ := h
    have hfuel : 2 * text.length ≤ 2 * (before ++ (text ++ after)).length + 2 := by
      simp only [List.length_append]
      omega
    have hends : EndsNumber after := by
      rw [← List.append_nil after]
      exact endsNumber_append hafter (by simp)
    have hnone : skipSpace after = [] := by
      rw [← List.append_nil after, skipSpace_append hafter]
      rfl
    rw [readValue?_blank hbefore, (readsTexts _).value hv after hfuel hends]
    simp [hnone]

end WorkflowLint.Json
