import Mathlib.Logic.Basic
import WorkflowLint.Text.Utf8

/-!
# Encoded text is read back

The reader of bytes is lenient, but it has nothing to be lenient about in a text that was encoded
properly: every scalar is read back, and nothing else.

## Main results

* `WorkflowLint.Text.Utf8.unit_encoded` — an encoded scalar is one unit.
* `WorkflowLint.Text.Utf8.decodeLossy_toUTF8` — an encoded text is read back.
-/

set_option autoImplicit false

namespace WorkflowLint.Text.Utf8

/-- A byte that may come next is taken in. -/
lemma scan_succ {low high owed value n : Nat} (bs : List UInt8) (hlow : low ≤ n) (hhigh : n ≤ high)
    (hn : n < 256) :
    scan low high (owed + 1) value (UInt8.ofNat n :: bs) =
      scan 0x80 0xBF owed (value * 64 + n % 64) bs := by
  have hbyte : (UInt8.ofNat n).toNat = n := UInt8.toNat_ofNat_of_lt' hn
  rw [scan, hbyte, if_pos ⟨hlow, hhigh⟩]

lemma unit_of_lead {n owed bits low high : Nat} (bs : List UInt8) (hn : n < 256)
    (hl : lead? n = some ⟨owed, bits, low, high⟩) :
    unit (UInt8.ofNat n) bs = scan low high owed bits bs := by
  have hbyte : (UInt8.ofNat n).toNat = n := UInt8.toNat_ofNat_of_lt' hn
  rw [unit, hbyte, hl]

/-- The first of two bytes. -/
lemma lead?_two : ∀ k < 32, 2 ≤ k → lead? (k + 192) = some ⟨1, k, 0x80, 0xBF⟩ := by decide

/-- The first of three bytes. -/
lemma lead?_three : ∀ k < 16, lead? (k + 224) =
    some ⟨2, k, if k = 0 then 0xA0 else 0x80, if k = 13 then 0x9F else 0xBF⟩ := by decide

/-- The first of four bytes. -/
lemma lead?_four : ∀ k < 5, lead? (k + 240) =
    some ⟨3, k, if k = 0 then 0x90 else 0x80, if k = 4 then 0x8F else 0xBF⟩ := by decide

/-- **An encoded scalar is one unit**, whatever comes behind it.

**Proof sketch.** By the number of bytes. Each byte carries six bits of the scalar, apart from the
first, and the bounds on the second byte are those of scalars that need so many bytes. -/
lemma unit_encoded (c : Char) (bs : List UInt8) :
    ∃ b rest, String.utf8EncodeChar c ++ bs = b :: rest ∧ unit b rest = (some c.toNat, bs) := by
  have hvalid : c.toNat < 0xD800 ∨ 0xDFFF < c.toNat ∧ c.toNat < 0x110000 := c.valid
  have hval : c.val.toNat = c.toNat := rfl
  simp only [String.utf8EncodeChar, hval]
  generalize c.toNat = v at hvalid
  by_cases h1 : v ≤ 127
  · rw [if_pos h1]
    have hlead : lead? v = some ⟨0, v, 0x80, 0xBF⟩ := if_pos h1
    exact ⟨_, bs, rfl, unit_of_lead bs (by omega) hlead⟩
  by_cases h2 : v ≤ 2047
  · rw [if_neg h1, if_pos h2, Nat.mod_eq_of_lt (by omega : v / 64 < 32)]
    refine ⟨_, UInt8.ofNat (v % 64 + 128) :: bs, rfl, ?_⟩
    rw [unit_of_lead _ (by omega) (lead?_two _ (by omega) (by omega)),
      scan_succ _ (by omega) (by omega) (by omega), scan]
    congr 2
    omega
  by_cases h3 : v ≤ 65535
  · rw [if_neg h1, if_neg h2, if_pos h3, Nat.mod_eq_of_lt (by omega : v / 4096 < 16)]
    refine ⟨_, UInt8.ofNat (v / 64 % 64 + 128) :: UInt8.ofNat (v % 64 + 128) :: bs, rfl, ?_⟩
    rw [unit_of_lead _ (by omega) (lead?_three _ (by omega)),
      scan_succ _ (by split <;> omega) (by split <;> omega) (by omega),
      scan_succ _ (by omega) (by omega) (by omega), scan]
    congr 2
    omega
  · rw [if_neg h1, if_neg h2, if_neg h3, Nat.mod_eq_of_lt (by omega : v / 262144 < 8)]
    refine ⟨_, UInt8.ofNat (v / 4096 % 64 + 128) :: UInt8.ofNat (v / 64 % 64 + 128) ::
      UInt8.ofNat (v % 64 + 128) :: bs, rfl, ?_⟩
    rw [unit_of_lead _ (by omega) (lead?_four _ (by omega)),
      scan_succ _ (by split <;> omega) (by split <;> omega) (by omega),
      scan_succ _ (by omega) (by omega) (by omega), scan_succ _ (by omega) (by omega) (by omega),
      scan]
    congr 2
    omega

/-- The units of an encoded text are its scalars. -/
lemma units_encoded (cs : List Char) : units (cs.flatMap String.utf8EncodeChar) = cs.map some := by
  induction cs with
  | nil => rw [List.flatMap_nil, units, List.map_nil]
  | cons c cs ih =>
    obtain ⟨b, rest, heq, hunit⟩ := unit_encoded c (cs.flatMap String.utf8EncodeChar)
    rw [List.flatMap_cons, heq, units, hunit, ih, Option.map_some, Char.ofNat_toNat, List.map_cons]

/-- **An encoded text is read back.** -/
theorem decodeLossy_toUTF8 (text : String) : decodeLossy text.toUTF8.data.toList = text := by
  have hbytes : text.toUTF8.data.toList = text.toList.flatMap String.utf8EncodeChar := by
    have hencoded : text.toByteArray = text.toList.utf8Encode := by
      rw [← String.toByteArray_ofList, String.ofList_toList]
    rw [String.toUTF8_eq_toByteArray, hencoded, List.utf8Encode, List.data_toByteArray]
  rw [hbytes, decodeLossy, units_encoded, List.map_map]
  have hid : ((fun u : Option Char => u.getD '\uFFFD') ∘ some) = id := rfl
  rw [hid, List.map_id, String.ofList_toList]

end WorkflowLint.Text.Utf8
