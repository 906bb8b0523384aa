import Mathlib.Data.List.TakeWhile
import WorkflowLint.Json.Reader

/-!
# The grammar of JSON

What a JSON text means is said here without a reader, by the rules of the grammar: a string is made
of characters that stand for themselves and of escapes, and a character beyond the first plane may
be written by two code units; a number has no needless zeros; and there may be blank space around
every value, every key and every comma. The readers of strings and of numbers follow these rules, in
both directions.

## Main definitions

* `WorkflowLint.Json.Spells`, `WorkflowLint.Json.Numeral` — the texts of strings and of numbers.
* `WorkflowLint.Json.ValueText`, `WorkflowLint.Json.PaddedText` — the texts of values.
* `WorkflowLint.Json.Means` — the value that a text means.
* `WorkflowLint.Json.EndsNumber` — what may follow a number.

## Main results

* `WorkflowLint.Json.Spells.readString?_append`, `WorkflowLint.Json.exists_spells_of_readString?` —
  what is read up to a closing quote is what is spelled there.
* `WorkflowLint.Json.Numeral.readNumber?_append`,
  `WorkflowLint.Json.exists_numeral_of_readNumber?` — what is read as a number is a numeral.
-/

set_option autoImplicit false

namespace WorkflowLint.Json

/-! ## The grammar -/

/-- Blank space, which only separates the parts of a text. -/
def IsBlank (cs : List Char) : Prop := ∀ c ∈ cs, c ∈ [' ', '\n', '\r', '\t']

lemma isBlank_nil : IsBlank [] := List.forall_mem_nil _

/-- The letters that stand for a character behind a backslash, and the characters. -/
def escapes : List (Char × Char) :=
  [('"', '"'), ('\\', '\\'), ('/', '/'), ('b', '\x08'), ('f', '\x0c'), ('n', '\n'), ('r', '\r'),
    ('t', '\t')]

/-- What stands between the quotes of a string, and the pieces that it writes. -/
inductive Written : List Char → List Piece → Prop
  | nil : Written [] []
  /-- A character that stands for itself. -/
  | plain {c : Char} {text : List Char} {pieces : List Piece} (hquote : c ≠ '"')
      (hescape : c ≠ '\\') (hcontrol : ' ' ≤ c) (h : Written text pieces) :
      Written (c :: text) (.char c :: pieces)
  /-- A character that is named by a letter. -/
  | letter {l c : Char} {text : List Char} {pieces : List Piece} (hl : (l, c) ∈ escapes)
      (h : Written text pieces) : Written ('\\' :: l :: text) (.char c :: pieces)
  /-- A code unit, given by four hexadecimal digits. -/
  | unit {digits : List Char} {n : Nat} {text : List Char} {pieces : List Piece}
      (hlength : digits.length = 4) (hdigits : hexNumber? digits = some n)
      (h : Written text pieces) : Written ('\\' :: 'u' :: (digits ++ text)) (.unit n :: pieces)

/-- The characters that pieces make up. A character of the first plane is one code unit, and any
other is two; half of one is no character. -/
inductive Joined : List Piece → List Char → Prop
  | nil : Joined [] []
  | char (c : Char) {pieces : List Piece} {cs : List Char} (h : Joined pieces cs) :
      Joined (.char c :: pieces) (c :: cs)
  | unit {c : Char} {pieces : List Piece} {cs : List Char} (hc : c.toNat < 0x10000)
      (h : Joined pieces cs) : Joined (.unit c.toNat :: pieces) (c :: cs)
  | halves {c : Char} {pieces : List Piece} {cs : List Char} (hc : 0x10000 ≤ c.toNat)
      (h : Joined pieces cs) :
      Joined (.unit (0xD800 + (c.toNat - 0x10000) / 0x400) ::
        .unit (0xDC00 + (c.toNat - 0x10000) % 0x400) :: pieces) (c :: cs)

/-- Between quotes, `text` stands for the characters `cs`. -/
def Spells (text cs : List Char) : Prop := ∃ pieces, Written text pieces ∧ Joined pieces cs

/-- A run of decimal digits. -/
def IsDigits (ds : List Char) : Prop := ds ≠ [] ∧ ∀ d ∈ ds, d.isDigit = true

/-- The whole part of a number, without needless zeros. -/
def IsWhole (ds : List Char) : Prop := IsDigits ds ∧ (ds.head? = some '0' → ds = ['0'])

/-- The signs that a number may have, and whether they make it negative. -/
def signs (plusAllowed : Bool) : List (List Char × Bool) :=
  [([], false), (['-'], true)] ++ if plusAllowed then [(['+'], false)] else []

/-- The part of a number behind the decimal point. -/
inductive Fraction : List Char → Option (List Char) → Prop
  | absent : Fraction [] none
  | present {ds : List Char} (h : IsDigits ds) : Fraction ('.' :: ds) (some ds)

/-- The exponent of a number. -/
inductive Exponent : List Char → Option Int → Prop
  | absent : Exponent [] none
  | present {e : Char} {sign ds : List Char} {negative : Bool} (he : e = 'e' ∨ e = 'E')
      (hsign : (sign, negative) ∈ signs true) (h : IsDigits ds) :
      Exponent (e :: (sign ++ ds)) (some (signed negative ds))

/-- The number that is given by its parts. -/
def numberOf (negative : Bool) (whole : List Char) : Option (List Char) → Option Int → Json
  | none, none => .number (signed negative whole)
  | fraction, exponent =>
    let places := fraction.getD []
    .decimal (signed negative (whole ++ places)) (exponent.getD 0 - places.length)

/-- The texts of numbers. -/
inductive Numeral : List Char → Json → Prop
  | mk {sign whole point power : List Char} {negative : Bool} {fraction : Option (List Char)}
      {exponent : Option Int} (hsign : (sign, negative) ∈ signs false) (hwhole : IsWhole whole)
      (hfraction : Fraction point fraction) (hexponent : Exponent power exponent) :
      Numeral (sign ++ (whole ++ (point ++ power))) (numberOf negative whole fraction exponent)

/-- The texts of some things, with a comma between any two. -/
inductive Separated {α : Type} (P : List Char → α → Prop) : List Char → List α → Prop
  | last {text : List Char} {a : α} (h : P text a) : Separated P text [a]
  | more {text rest : List Char} {a : α} {as : List α} (h : P text a)
      (hrest : Separated P rest as) : Separated P (text ++ ',' :: rest) (a :: as)

mutual

/-- The texts of values. -/
inductive ValueText : List Char → Json → Prop
  | null : ValueText ['n', 'u', 'l', 'l'] .null
  | isTrue : ValueText ['t', 'r', 'u', 'e'] (.truth true)
  | isFalse : ValueText ['f', 'a', 'l', 's', 'e'] (.truth false)
  | number {text : List Char} {v : Json} (h : Numeral text v) : ValueText text v
  | text {text cs : List Char} (h : Spells text cs) :
      ValueText ('"' :: (text ++ ['"'])) (.text (String.ofList cs))
  | emptyList {blank : List Char} (h : IsBlank blank) :
      ValueText ('[' :: (blank ++ [']'])) (.list [])
  | list {text : List Char} {items : List Json} (h : Separated PaddedText text items) :
      ValueText ('[' :: (text ++ [']'])) (.list items)
  | emptyRecord {blank : List Char} (h : IsBlank blank) :
      ValueText ('\x7b' :: (blank ++ ['\x7d'])) (.record [])
  | record {text : List Char} {fields : List (String × Json)}
      (h : Separated FieldText text fields) :
      ValueText ('\x7b' :: (text ++ ['\x7d'])) (.record fields)

/-- The texts of values with blank space around them. -/
inductive PaddedText : List Char → Json → Prop
  | mk {before text after : List Char} {v : Json} (hbefore : IsBlank before) (h : ValueText text v)
      (hafter : IsBlank after) : PaddedText (before ++ (text ++ after)) v

/-- The texts of the fields of a record. -/
inductive FieldText : List Char → String × Json → Prop
  | mk {before key cs behind text : List Char} {v : Json} (hbefore : IsBlank before)
      (hkey : Spells key cs) (hbehind : IsBlank behind) (h : PaddedText text v) :
      FieldText (before ++ '"' :: (key ++ '"' :: (behind ++ ':' :: text))) (String.ofList cs, v)

end

/-- The text `s` means the value `v`. -/
def Means (s : String) (v : Json) : Prop := PaddedText s.toList v

/-! ## Strings -/

lemma escaped?_eq_some_iff {l c : Char} : escaped? l = some c ↔ (l, c) ∈ escapes := by
  unfold escaped?
  split <;> simp_all [escapes, eq_comm]

/-- What is written is read, up to the closing quote. -/
lemma Written.readPieces?_append {text : List Char} {pieces : List Piece} (h : Written text pieces)
    (before : List Piece) (rest : List Char) :
    readPieces? before (text ++ rest) = readPieces? (pieces.reverse ++ before) rest := by
  induction h generalizing before with
  | nil => rfl
  | plain hquote hescape hcontrol _ ih =>
    rw [List.cons_append, readPieces?, if_neg (Char.not_lt.2 hcontrol), ih]
    · simp
    all_goals simp [hquote, hescape]
  | letter hl _ ih =>
    rw [List.cons_append, List.cons_append, readPieces?, escaped?_eq_some_iff.2 hl]
    · simp [ih]
    · rintro - - - - - rfl
      simp [escapes] at hl
  | @unit digits n text pieces hlength hdigits _ ih =>
    obtain ⟨a, b, c, d, rfl⟩ : ∃ a b c d, digits = [a, b, c, d] :=
      match digits, hlength with
      | [a, b, c, d], _ => ⟨a, b, c, d, rfl⟩
    simp [readPieces?, hdigits, ih]

/-- What is read up to the closing quote is what is written there. -/
lemma exists_written_of_readPieces? {before pieces : List Piece} {cs rest : List Char}
    (h : readPieces? before cs = some (pieces, rest)) :
    ∃ text more, cs = text ++ '"' :: rest ∧ pieces = before.reverse ++ more ∧
      Written text more := by
  fun_induction readPieces? before cs with
  | case1 => cases h
  | case2 before cs =>
    obtain ⟨rfl, rfl⟩ := Prod.mk.inj (Option.some.inj h)
    exact ⟨[], [], rfl, by simp, .nil⟩
  | case3 before a b c d cs n hn ih =>
    obtain ⟨text, more, rfl, rfl, hmore⟩ := ih h
    have hdigits : [a, b, c, d].length = 4 := rfl
    exact ⟨_, _, by simp, by simp, .unit hdigits hn hmore⟩
  | case4 => cases h
  | case5 before l cs _ c hl ih =>
    obtain ⟨text, more, rfl, rfl, hmore⟩ := ih h
    exact ⟨_, _, rfl, by simp, .letter (escaped?_eq_some_iff.1 hl) hmore⟩
  | case6 => cases h
  | case7 => cases h
  | case8 before c cs hquote _ hescape hcontrol ih =>
    obtain ⟨text, more, rfl, rfl, hmore⟩ := ih h
    -- a backslash would not be the last character
    have hc : c ≠ '\\' := by
      rintro rfl
      obtain ⟨d, ds, hds⟩ := List.exists_cons_of_ne_nil (l := text ++ '"' :: rest) (by simp)
      exact hescape d ds rfl hds
    exact ⟨_, _, rfl, by simp, .plain (by simpa using hquote) hc (Char.not_lt.1 hcontrol) hmore⟩

lemma lt_of_hexValue? {c : Char} {d : Nat} (h : hexValue? c = some d) : d < 16 := by
  have hle (a b : Char) : a ≤ b ↔ a.toNat ≤ b.toNat := Iff.rfl
  simp only [hexValue?, Bool.and_eq_true, decide_eq_true_eq, hle] at h
  have hchars : 'f'.toNat = 102 ∧ 'a'.toNat = 97 ∧ 'F'.toNat = 70 ∧ 'A'.toNat = 65 ∧
      '9'.toNat = 57 ∧ '0'.toNat = 48 := by decide
  grind

/-- Four hexadecimal digits stand for a code unit. -/
lemma lt_of_hexNumber? {digits : List Char} {n : Nat} (hlength : digits.length = 4)
    (h : hexNumber? digits = some n) : n < 0x10000 := by
  have hfold (k : Nat) : digits.foldlM (fun n c => (hexValue? c).map fun d => n * 16 + d) k =
      some n → n < (k + 1) * 16 ^ digits.length := by
    clear hlength h
    induction digits generalizing k with
    | nil =>
      intro h
      obtain rfl := Option.some.inj h
      simp
    | cons c digits ih =>
      intro h
      rw [List.foldlM_cons] at h
      obtain ⟨m, hm, h⟩ := Option.bind_eq_some_iff.1 h
      obtain ⟨d, hd, rfl⟩ := Option.map_eq_some_iff.1 hm
      have hlt := ih _ h
      have hsum : k * 16 + d + 1 ≤ (k + 1) * 16 := by
        have := lt_of_hexValue? hd
        omega
      calc n < (k * 16 + d + 1) * 16 ^ digits.length := hlt
        _ ≤ (k + 1) * 16 * 16 ^ digits.length := Nat.mul_le_mul_right _ hsum
        _ = (k + 1) * 16 ^ (digits.length + 1) := by rw [Nat.pow_succ', Nat.mul_assoc]
  have hlt := hfold 0 h
  simpa [hlength] using hlt

lemma Written.lt_of_unit_mem {text : List Char} {pieces : List Piece} (h : Written text pieces)
    {n : Nat} (hn : .unit n ∈ pieces) : n < 0x10000 := by
  induction h with
  | nil => cases hn
  | plain _ _ _ _ ih => exact ih (by simpa using hn)
  | letter _ _ ih => exact ih (by simpa using hn)
  | unit hlength hdigits _ ih =>
    obtain hn | hn := List.mem_cons.1 hn
    · obtain rfl := Piece.unit.inj hn
      exact lt_of_hexNumber? hlength hdigits
    · exact ih hn

/-- A code unit that is a character is put in place on its own. -/
lemma assemble?_unit (before : List Char) (c : Char) (more : List Piece) :
    assemble? before (.unit c.toNat :: more) = assemble? (c :: before) more := by
  have hvalid : c.toNat < 0xD800 ∨ 0xDFFF < c.toNat ∧ c.toNat < 0x110000 := c.valid
  have hhigh : isHigh c.toNat = false := by
    simp only [isHigh, Bool.and_eq_false_iff, decide_eq_false_iff_not]
    omega
  have hlow : isLow c.toNat = false := by
    simp only [isLow, Bool.and_eq_false_iff, decide_eq_false_iff_not]
    omega
  cases more with
  | nil => simp [assemble?, hhigh, hlow]
  | cons piece more =>
    cases piece with
    | char d => simp [assemble?, hhigh, hlow]
    | unit low => simp [assemble?, hhigh, hlow]

/-- The two halves of a character beyond the first plane are put together. -/
lemma assemble?_halves (before : List Char) {c : Char} (h : 0x10000 ≤ c.toNat) (more : List Piece) :
    assemble? before (.unit (0xD800 + (c.toNat - 0x10000) / 0x400) ::
      .unit (0xDC00 + (c.toNat - 0x10000) % 0x400) :: more) = assemble? (c :: before) more := by
  have hvalid : c.toNat < 0xD800 ∨ 0xDFFF < c.toNat ∧ c.toNat < 0x110000 := c.valid
  have hhigh : isHigh (0xD800 + (c.toNat - 0x10000) / 0x400) = true := by
    simp only [isHigh, Bool.and_eq_true, decide_eq_true_eq]
    omega
  have hlow : isLow (0xDC00 + (c.toNat - 0x10000) % 0x400) = true := by
    simp only [isLow, Bool.and_eq_true, decide_eq_true_eq]
    omega
  have hchar : 0x10000 + (0xD800 + (c.toNat - 0x10000) / 0x400 - 0xD800) * 0x400 +
      (0xDC00 + (c.toNat - 0x10000) % 0x400 - 0xDC00) = c.toNat := by
    omega
  rw [assemble?, hhigh, hlow, hchar, Char.ofNat_toNat]
  rfl

/-- Pieces are put together to the characters that they make up. -/
lemma Joined.assemble?_eq {pieces : List Piece} {cs : List Char} (h : Joined pieces cs)
    (before : List Char) : assemble? before pieces = some (before.reverse ++ cs) := by
  induction h generalizing before with
  | nil => simp [assemble?]
  | char c _ ih => simp [assemble?, ih]
  | unit _ _ ih => simp [assemble?_unit, ih]
  | halves hc _ ih => simp [assemble?_halves before hc, ih]

lemma toNat_ofNat {n : Nat} (h : n.isValidChar) : (Char.ofNat n).toNat = n := by
  rw [Char.ofNat, dif_pos h]
  rfl

/-- A code unit that is no half stands for a character. -/
lemma joined_unit {n : Nat} {pieces : List Piece} {cs : List Char} (hn : n < 0x10000)
    (hhalf : ¬ (isHigh n || isLow n) = true) (h : Joined pieces cs) :
    Joined (.unit n :: pieces) (Char.ofNat n :: cs) := by
  have hvalid : n.isValidChar := by
    simp only [isHigh, isLow, Bool.or_eq_true, Bool.and_eq_true, decide_eq_true_eq] at hhalf
    rw [Nat.isValidChar]
    omega
  have hjoined : Joined (.unit (Char.ofNat n).toNat :: pieces) (Char.ofNat n :: cs) :=
    .unit (by rwa [toNat_ofNat hvalid]) h
  rwa [toNat_ofNat hvalid] at hjoined

/-- Two halves stand for a character. -/
lemma joined_halves {high low : Nat} {pieces : List Piece} {cs : List Char}
    (hhalves : (isHigh high && isLow low) = true) (h : Joined pieces cs) :
    Joined (.unit high :: .unit low :: pieces)
      (Char.ofNat (0x10000 + (high - 0xD800) * 0x400 + (low - 0xDC00)) :: cs) := by
  simp only [isHigh, isLow, Bool.and_eq_true, decide_eq_true_eq] at hhalves
  obtain ⟨n, hn⟩ : ∃ n, n = 0x10000 + (high - 0xD800) * 0x400 + (low - 0xDC00) := ⟨_, rfl⟩
  have hvalid : n.isValidChar := by
    rw [Nat.isValidChar]
    omega
  have hnat : (Char.ofNat n).toNat = n := toNat_ofNat hvalid
  have hhigh : 0xD800 + (n - 0x10000) / 0x400 = high := by omega
  have hlow : 0xDC00 + (n - 0x10000) % 0x400 = low := by omega
  have hjoined := Joined.halves (c := Char.ofNat n) (by omega) h
  rw [hnat, hhigh, hlow] at hjoined
  rwa [← hn]

/-- Pieces that are put together make up what they are put together to. -/
lemma exists_joined_of_assemble? {before cs : List Char} {pieces : List Piece}
    (hunits : ∀ n, .unit n ∈ pieces → n < 0x10000) (h : assemble? before pieces = some cs) :
    ∃ more, cs = before.reverse ++ more ∧ Joined pieces more := by
  fun_induction assemble? before pieces with
  | case1 before =>
    obtain rfl := Option.some.inj h
    exact ⟨[], by simp, .nil⟩
  | case2 before c pieces ih =>
    obtain ⟨more, rfl, hmore⟩ := ih (fun n hn => hunits n (List.mem_cons_of_mem _ hn)) h
    exact ⟨c :: more, by simp, .char c hmore⟩
  | case3 before high low pieces hhalves ih =>
    obtain ⟨more, rfl, hmore⟩ := ih (fun n hn => hunits n (by simp [hn])) h
    exact ⟨_, by simp, joined_halves hhalves hmore⟩
  | case4 => cases h
  | case5 before high low pieces _ hhalf ih =>
    obtain ⟨more, rfl, hmore⟩ := ih (fun n hn => hunits n (List.mem_cons_of_mem _ hn)) h
    exact ⟨_, by simp, joined_unit (hunits _ List.mem_cons_self) hhalf hmore⟩
  | case6 => cases h
  | case7 before n pieces _ hhalf ih =>
    obtain ⟨more, rfl, hmore⟩ := ih (fun n hn => hunits n (List.mem_cons_of_mem _ hn)) h
    exact ⟨_, by simp, joined_unit (hunits _ List.mem_cons_self) hhalf hmore⟩

/-- A string is read up to its closing quote. -/
lemma Spells.readString?_append {text cs : List Char} (h : Spells text cs) (rest : List Char) :
    readString? (text ++ '"' :: rest) = some (String.ofList cs, rest) := by
  obtain ⟨pieces, hwritten, hjoined⟩ := h
  simp [readString?, hwritten.readPieces?_append, readPieces?, hjoined.assemble?_eq]

lemma exists_spells_of_readString? {cs rest : List Char} {s : String}
    (h : readString? cs = some (s, rest)) :
    ∃ text cs', cs = text ++ '"' :: rest ∧ s = String.ofList cs' ∧ Spells text cs' := by
  obtain ⟨⟨pieces, rest'⟩, hread, h⟩ := Option.bind_eq_some_iff.1 h
  obtain ⟨cs', hassemble, h⟩ := Option.bind_eq_some_iff.1 h
  obtain ⟨rfl, rfl⟩ := Prod.mk.inj (Option.some.inj h)
  obtain ⟨text, more, rfl, rfl, hwritten⟩ := exists_written_of_readPieces? hread
  obtain ⟨more, rfl, hjoined⟩ :=
    exists_joined_of_assemble? (fun n hn => hwritten.lt_of_unit_mem hn) hassemble
  exact ⟨text, cs', rfl, rfl, pieces, hwritten, hjoined⟩

/-! ## Numbers -/

/-- What may follow a number: nothing that could be a part of it. -/
def EndsNumber (rest : List Char) : Prop :=
  ∀ c ∈ rest.head?, c.isDigit = false ∧ c ≠ '.' ∧ c ≠ 'e' ∧ c ≠ 'E'

/-- Digits are split off from what does not start with a digit. -/
lemma splitDigits_append {ds rest : List Char} (hds : ∀ d ∈ ds, d.isDigit = true)
    (h : ∀ c ∈ rest.head?, c.isDigit = false) : splitDigits (ds ++ rest) = (ds, rest) := by
  have htake : rest.takeWhile Char.isDigit = [] := by
    cases rest with
    | nil => rfl
    | cons c cs => simp [h c rfl]
  have hdrop : rest.dropWhile Char.isDigit = rest := by
    cases rest with
    | nil => rfl
    | cons c cs => simp [h c rfl]
  rw [splitDigits, List.takeWhile_append_of_pos hds, List.dropWhile_append_of_pos hds, htake,
    hdrop, List.append_nil]

/-- What is split off are digits. -/
lemma eq_append_of_splitDigits {cs ds rest : List Char} (h : splitDigits cs = (ds, rest)) :
    cs = ds ++ rest ∧ ∀ d ∈ ds, d.isDigit = true := by
  obtain ⟨rfl, rfl⟩ := Prod.mk.inj h
  exact ⟨List.takeWhile_append_dropWhile.symm, fun _ hd => List.mem_takeWhile_imp hd⟩

/-- A sign is split off from what does not start with a sign. -/
lemma splitSign_append {plusAllowed negative : Bool} {sign rest : List Char}
    (hsign : (sign, negative) ∈ signs plusAllowed) (h : ∀ c ∈ rest.head?, c.isDigit = true) :
    splitSign plusAllowed (sign ++ rest) = (negative, rest) := by
  have hdigit : splitSign plusAllowed rest = (false, rest) := by
    fun_cases splitSign plusAllowed rest with
    | case1 => simp at h
    | case2 => simp at h
    | case3 => rfl
    | case4 => rfl
  obtain hnone | hminus | ⟨hplus, hallowed⟩ : sign = [] ∧ negative = false ∨
      sign = ['-'] ∧ negative = true ∨ (sign = ['+'] ∧ negative = false) ∧ plusAllowed = true := by
    cases plusAllowed <;> simpa [signs] using hsign
  · obtain ⟨rfl, rfl⟩ := hnone
    exact hdigit
  · obtain ⟨rfl, rfl⟩ := hminus
    rfl
  · obtain ⟨rfl, rfl⟩ := hplus
    simp [splitSign, hallowed]

/-- What is split off is a sign. -/
lemma exists_sign (plusAllowed : Bool) (cs : List Char) :
    ∃ sign, (sign, (splitSign plusAllowed cs).1) ∈ signs plusAllowed ∧
      cs = sign ++ (splitSign plusAllowed cs).2 := by
  fun_cases splitSign plusAllowed cs with
  | case1 cs => exact ⟨['-'], by simp [signs], rfl⟩
  | case2 cs hplus => exact ⟨['+'], by simp [signs, hplus], rfl⟩
  | case3 cs hplus => exact ⟨[], by simp [signs], rfl⟩
  | case4 => exact ⟨[], by simp [signs], rfl⟩

/-- Digits start with a digit. -/
lemma IsDigits.isDigit_head? {ds : List Char} (h : IsDigits ds) (rest : List Char) :
    ∀ c ∈ (ds ++ rest).head?, c.isDigit = true := by
  obtain ⟨d, ds, rfl⟩ := List.exists_cons_of_ne_nil h.1
  intro c hc
  obtain rfl := Option.some.inj hc
  exact h.2 d List.mem_cons_self

lemma Fraction.readFraction?_append {point rest : List Char} {fraction : Option (List Char)}
    (h : Fraction point fraction) (hrest : ∀ c ∈ rest.head?, c.isDigit = false ∧ c ≠ '.') :
    readFraction? (point ++ rest) = some (fraction, rest) := by
  cases h with
  | absent =>
    cases rest with
    | nil => rfl
    | cons c cs =>
      rw [List.nil_append, readFraction?]
      rintro ds heq
      exact (hrest c rfl).2 (List.cons.inj heq).1
  | present hds =>
    obtain ⟨d, ds, rfl⟩ := List.exists_cons_of_ne_nil hds.1
    have hsplit := splitDigits_append hds.2 fun c hc => (hrest c hc).1
    rw [List.cons_append, readFraction?, hsplit]

lemma exists_fraction_of_readFraction? {cs rest : List Char} {fraction : Option (List Char)}
    (h : readFraction? cs = some (fraction, rest)) :
    ∃ point, cs = point ++ rest ∧ Fraction point fraction := by
  unfold readFraction? at h
  split at h
  · split at h
    · cases h
    · rename_i ds rest' hne hsplit
      obtain ⟨rfl, rfl⟩ := Prod.mk.inj (Option.some.inj h)
      obtain ⟨rfl, hdigits⟩ := eq_append_of_splitDigits hsplit
      exact ⟨'.' :: ds, rfl, .present ⟨by simpa using hne, hdigits⟩⟩
  · obtain ⟨rfl, rfl⟩ := Prod.mk.inj (Option.some.inj h)
    exact ⟨[], rfl, .absent⟩

lemma Exponent.readExponent?_append {power rest : List Char} {exponent : Option Int}
    (h : Exponent power exponent) (hrest : EndsNumber rest) :
    readExponent? (power ++ rest) = some (exponent, rest) := by
  cases h with
  | absent =>
    cases rest with
    | nil => rfl
    | cons c cs =>
      obtain ⟨-, -, he, hE⟩ := hrest c rfl
      simp [readExponent?, he, hE]
  | @present e sign ds negative he hsign hds =>
    have hsplit := splitSign_append hsign (hds.isDigit_head? rest)
    have hdigits := splitDigits_append hds.2 fun c hc => (hrest c hc).1
    obtain ⟨d, ds, rfl⟩ := List.exists_cons_of_ne_nil hds.1
    rw [List.cons_append, readExponent?, if_pos (by simpa using he)]
    simp only [List.append_assoc, hsplit, hdigits]

lemma exists_exponent_of_readExponent? {cs rest : List Char} {exponent : Option Int}
    (h : readExponent? cs = some (exponent, rest)) :
    ∃ power, cs = power ++ rest ∧ Exponent power exponent := by
  unfold readExponent? at h
  split at h
  · rename_i e cs
    split at h
    · rename_i he
      obtain ⟨sign, hsign, hcs⟩ := exists_sign true cs
      simp only at h
      split at h
      · cases h
      · rename_i ds rest' hne hsplit
        obtain ⟨rfl, rfl⟩ := Prod.mk.inj (Option.some.inj h)
        obtain ⟨happend, hdigits⟩ := eq_append_of_splitDigits hsplit
        exact ⟨e :: (sign ++ ds), by rw [List.cons_append, List.append_assoc, ← happend, ← hcs],
          .present (by simpa using he) hsign ⟨by simpa using hne, hdigits⟩⟩
    · obtain ⟨rfl, rfl⟩ := Prod.mk.inj (Option.some.inj h)
      exact ⟨[], rfl, .absent⟩
  · obtain ⟨rfl, rfl⟩ := Prod.mk.inj (Option.some.inj h)
    exact ⟨[], rfl, .absent⟩

lemma EndsNumber.head?_append {power rest : List Char} {exponent : Option Int}
    (hrest : EndsNumber rest) (h : Exponent power exponent) :
    ∀ c ∈ (power ++ rest).head?, c.isDigit = false ∧ c ≠ '.' := by
  cases h with
  | absent => exact fun c hc => ⟨(hrest c hc).1, (hrest c hc).2.1⟩
  | present he =>
    intro c hc
    obtain rfl := Option.some.inj hc
    obtain rfl | rfl := he <;> decide

lemma EndsNumber.isDigit_head?_append {point power rest : List Char}
    {fraction : Option (List Char)} {exponent : Option Int} (hrest : EndsNumber rest)
    (hpoint : Fraction point fraction) (hpower : Exponent power exponent) :
    ∀ c ∈ (point ++ (power ++ rest)).head?, c.isDigit = false := by
  cases hpoint with
  | absent => exact fun c hc => (hrest.head?_append hpower c hc).1
  | present =>
    intro c hc
    obtain rfl := Option.some.inj hc
    decide

/-- The digits of a whole part have no needless zeros. -/
lemma isWhole_iff {ds : List Char} (hds : ∀ d ∈ ds, d.isDigit = true) :
    IsWhole ds ↔ (ds.isEmpty || (ds.length > 1 && ds.head? == some '0')) = false := by
  match ds with
  | [] => simp [IsWhole, IsDigits]
  | [d] => simpa [IsWhole, IsDigits] using hds
  | d :: e :: ds => simpa [IsWhole, IsDigits] using fun _ => hds

/-- A number is read in front of whatever may follow a number. -/
lemma Numeral.readNumber?_append {text rest : List Char} {v : Json} (h : Numeral text v)
    (hrest : EndsNumber rest) : readNumber? (text ++ rest) = some (v, rest) := by
  obtain @⟨_, _, point, power, _, fraction, exponent, hsign, hwhole, hpoint, hpower⟩ := h
  have hhead := hwhole.1.isDigit_head? (point ++ (power ++ rest))
  have hdigits := splitDigits_append hwhole.1.2 (hrest.isDigit_head?_append hpoint hpower)
  have hzeros := (isWhole_iff hwhole.1.2).1 hwhole
  simp only [List.append_assoc, readNumber?, splitSign_append hsign hhead, hdigits, hzeros,
    hpoint.readFraction?_append (hrest.head?_append hpower), hpower.readExponent?_append hrest,
    Option.bind_eq_bind, Option.bind_some]
  cases fraction <;> cases exponent <;> simp [numberOf]

lemma exists_numeral_of_readNumber? {cs rest : List Char} {v : Json}
    (h : readNumber? cs = some (v, rest)) : ∃ text, cs = text ++ rest ∧ Numeral text v := by
  obtain ⟨sign, hsign, hcs⟩ := exists_sign false cs
  have hsplit := (Prod.eta (splitDigits (splitSign false cs).2)).symm
  obtain ⟨happend, hdigits⟩ := eq_append_of_splitDigits hsplit
  unfold readNumber? at h
  simp only at h
  split at h
  · cases h
  · rename_i hzeros
    have hwhole := (isWhole_iff hdigits).2 (Bool.eq_false_iff.2 hzeros)
    obtain ⟨⟨fraction, cs'⟩, hread, h⟩ := Option.bind_eq_some_iff.1 h
    obtain ⟨⟨exponent, rest'⟩, hread', h⟩ := Option.bind_eq_some_iff.1 h
    obtain ⟨point, hcs', hpoint⟩ := exists_fraction_of_readFraction? hread
    obtain ⟨power, rfl, hpower⟩ := exists_exponent_of_readExponent? hread'
    obtain ⟨rfl, rfl⟩ : numberOf (splitSign false cs).1 (splitDigits (splitSign false cs).2).1
        fraction exponent = v ∧ rest' = rest := by
      cases fraction <;> cases exponent <;> simpa [numberOf] using h
    refine ⟨_, ?_, Numeral.mk hsign hwhole hpoint hpower⟩
    rw [List.append_assoc, List.append_assoc, List.append_assoc, ← hcs', ← happend, ← hcs]

end WorkflowLint.Json
