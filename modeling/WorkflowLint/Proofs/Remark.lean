import Mathlib.Logic.Basic
import WorkflowLint.Proofs.Reference

/-!
# Remarks

The findings about the meaning of a script, as opposed to its form. An abstract script has no form,
so its diagnostics are remarks; and the message of a remark never reads like that of a failed
expectation.

## Main definitions

* `WorkflowLint.Finding.isRemark` — is a finding about the meaning of a script?

## Main results

* `WorkflowLint.Finding.isRemark_message` — no remark begins with "Expected".
* `WorkflowLint.Grammar.isRemark_of_mem_script` — the diagnostics of an abstract script are remarks.
-/

set_option autoImplicit false

namespace WorkflowLint

open Grammar

/-! ## Messages -/

/-- Is this a finding about the meaning of a script, and not about its form? -/
def Finding.isRemark : Finding → Bool
  | .expected _ | .note _ _ => false
  | _ => true

/-- The message of a failed expectation begins with "Expected". -/
lemma Finding.expected_message (what : String) :
    "Expected".toList <+: (expected what).message.toList := by
  have hmessage : (expected what).message = "Expected " ++ what ++ "." := rfl
  have hword : "Expected ".toList = "Expected".toList ++ [' '] := by decide
  rw [hmessage, String.toList_append, String.toList_append, hword, List.append_assoc,
    List.append_assoc]
  exact List.prefix_append _ _

/-- The message of a remark does not: no remark begins with an "E". -/
lemma Finding.isRemark_message {f : Finding} (h : f.isRemark = true) :
    ¬ "Expected".toList <+: f.message.toList := by
  rintro ⟨rest, hrest⟩
  have hhead : f.message.toList.head? = some 'E' := by
    rw [← hrest, List.head?_append]
    rfl
  unfold message at hhead
  cases f <;> dsimp only at hhead <;>
    (try simp only [String.toList_append, List.append_assoc, List.head?_append] at hhead) <;>
    first
    | exact Bool.noConfusion h
    | exact absurd (Option.some.inj hhead) (by decide)

/-! ## Diagnostics of abstract scripts -/

namespace Grammar

/-- What is complained of is the finding at hand. -/
lemma finding_of_mem_complain {c : Prop} [Decidable c] {f : Finding} {t : Token} {d : Diagnostic}
    (h : d ∈ complain c f t) : d.finding = f := by
  rw [complain] at h
  split at h
  · rw [List.mem_singleton.1 h]
  · cases h

/-- What is gathered from a list was said about one of its items. -/
lemma exists_of_mem_gather {α β γ : Type} {step : β → α → β} {say : β → α → List γ} {c : γ}
    {as : List α} : ∀ {b : β}, c ∈ gather step say b as → ∃ b' a, c ∈ say b' a := by
  induction as with
  | nil =>
    intro b h
    cases h
  | cons a as ih =>
    intro b h
    rw [gather, List.mem_append] at h
    rcases h with h | h
    · exact ⟨b, a, h⟩
    · exact ih h

/-- The diagnostics of a cadence's item are remarks. -/
lemma isRemark_of_mem_cadenceItem {Γ : Scope} {item : CadenceItem} {d : Diagnostic}
    (h : d ∈ item.diagnostics Γ) : d.finding.isRemark = true := by
  cases item with
  | compare rubric => rw [finding_of_mem_complain h]; rfl
  | keep limit => rw [finding_of_mem_complain h]; rfl
  | assign a key_ne =>
    rw [CadenceItem.diagnostics] at h
    split at h
    · cases h
    · split at h
      · rw [finding_of_mem_complain h]; rfl
      · rw [List.mem_singleton.1 h]; rfl

/-- The diagnostics of an attachment are remarks. -/
lemma isRemark_of_mem_attachment {Γ : Scope} {earlier : List (Assignment attachmentValue)}
    {a : Assignment attachmentValue} {d : Diagnostic} (h : d ∈ attachmentDiagnostics Γ earlier a) :
    d.finding.isRemark = true := by
  rw [attachmentDiagnostics, List.mem_append, referenceDiagnostics] at h
  rcases h with h | h
  · rw [finding_of_mem_complain h]; rfl
  · split at h
    · rw [List.mem_singleton.1 h]; rfl
    · rw [finding_of_mem_complain h]; rfl

/-- The diagnostics of what an artifact is made from are remarks. -/
lemma isRemark_of_mem_origin {origin : Origin} {d : Diagnostic} (h : d ∈ origin.diagnostics) :
    d.finding.isRemark = true := by
  cases origin with
  | prompt text => cases h
  | files first more =>
    obtain ⟨earlier, path, h⟩ := exists_of_mem_gather h
    rw [finding_of_mem_complain h]; rfl

/-- The diagnostics of a rubric's item are remarks. -/
lemma isRemark_of_mem_rubricItem {item : RubricItem} {d : Diagnostic} (h : d ∈ item.diagnostics) :
    d.finding.isRemark = true := by
  cases item with
  | tiebreakers labels => cases h
  | criterion label points meaning =>
    rw [RubricItem.diagnostics, List.mem_append, List.mem_flatMap] at h
    rcases h with h | ⟨m, -, h⟩
    · rw [finding_of_mem_complain h]; rfl
    · rw [finding_of_mem_complain h]; rfl

/-- The diagnostics of a statement are remarks. -/
lemma isRemark_of_mem_statement {Γ : Scope} {st : Statement} {d : Diagnostic}
    (h : d ∈ st.diagnostics Γ) : d.finding.isRemark = true := by
  cases st with
  | juliet keyword settings =>
    simp only [Statement.diagnostics, List.mem_append, List.mem_flatMap] at h
    rcases h with h | ⟨a, -, h⟩
    · rw [finding_of_mem_complain h]; rfl
    · rw [finding_of_mem_complain h]; rfl
  | policy name body => rw [finding_of_mem_complain h]; rfl
  | rubric name items =>
    simp only [Statement.diagnostics, List.mem_append, List.mem_flatMap] at h
    rcases h with (h | ⟨item, -, h⟩) | ⟨label, -, h⟩
    · rw [finding_of_mem_complain h]; rfl
    · exact isRemark_of_mem_rubricItem h
    · rw [finding_of_mem_complain h]; rfl
  | cadence name items =>
    simp only [Statement.diagnostics, List.mem_append, List.mem_flatMap] at h
    rcases h with (h | ⟨item, -, h⟩) | ⟨key, -, h⟩
    · rw [finding_of_mem_complain h]; rfl
    · exact isRemark_of_mem_cadenceItem h
    · rw [finding_of_mem_complain h]; rfl
  | create name origin uses attachments =>
    simp only [Statement.diagnostics, List.mem_append, List.mem_flatMap] at h
    rcases h with ((h | ⟨name, -, h⟩) | h) | h
    · exact isRemark_of_mem_origin h
    · rw [finding_of_mem_complain h]; rfl
    · obtain ⟨earlier, a, h⟩ := exists_of_mem_gather h
      exact isRemark_of_mem_attachment h
    · rw [finding_of_mem_complain h]; rfl
  | extend artifact target text =>
    simp only [Statement.diagnostics, List.mem_append] at h
    rcases h with h | h
    · rw [finding_of_mem_complain h]; rfl
    · rw [finding_of_mem_complain h]; rfl
  | halt message => cases h

/-- The diagnostics of an abstract script are remarks. -/
lemma isRemark_of_mem_script {Γ : Scope} {sc : Script} {d : Diagnostic}
    (h : d ∈ sc.diagnostics Γ) : d.finding.isRemark = true := by
  obtain ⟨Γ', st, h⟩ := exists_of_mem_gather h
  exact isRemark_of_mem_statement h

end Grammar

end WorkflowLint
