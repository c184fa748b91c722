import Renga.Lib.Lines
import Renga.Jobs.SignedLeases

/-!
# What a lease signature covers

An agent signs one text for each offer it claims, `SignedLeases.message`, and the text
determines what it speaks for: the job's id, the token and the nonce are read from the
front, the binding's version and resource from the back, and what remains is the
installation's own name for itself, which may hold anything.  Tokens and nonces are drawn in
URL-safe Base64 (`Jobs.new_token/0`), so they are one line each.
-/

namespace Renga.Jobs.SignedLeases

open List

/-- What a signature speaks for. -/
structure Fields where
  jobId : Uuid
  token : Token
  nonce : Token
  installationId : String
  resourceId : Option Uuid
  bindingVersion : ℤ
  deriving DecidableEq

/-- The text the agent signs. -/
def Fields.message (fields : Fields) : List Char :=
  SignedLeases.message fields.jobId fields.token fields.nonce fields.installationId
    fields.resourceId fields.bindingVersion

/-- Neither the token nor the nonce holds a line break. -/
def Fields.OneLine (fields : Fields) : Prop :=
  '\n' ∉ fields.token.toList ∧ '\n' ∉ fields.nonce.toList

/-! ### Numbers are one line -/

theorem oneLine_repr {n : ℕ} : '\n' ∉ n.repr.toList := by
  intro mem
  rw [Nat.toList_repr] at mem
  have digit := Nat.isDigit_of_mem_toDigits (by decide) (by decide) mem
  revert digit
  decide

theorem oneLine_toString_int {n : ℤ} : '\n' ∉ (toString n).toList := by
  intro mem
  rw [show toString n = n.repr from rfl, Int.repr_eq_if] at mem
  split at mem
  · exact oneLine_repr mem
  rw [String.toList_append, mem_append] at mem
  rcases mem with sign | digits
  · revert sign
    decide
  · exact oneLine_repr digits

/-- The line of the resource, empty for a binding without one. -/
def resourceLine (resourceId : Option Uuid) : List Char :=
  ((resourceId.map toString).getD "").toList

theorem oneLine_resourceLine {resourceId : Option Uuid} : '\n' ∉ resourceLine resourceId := by
  cases resourceId with
  | none =>
    intro mem
    cases mem
  | some => exact oneLine_repr

theorem repr_ne_nil {n : ℕ} : n.repr.toList ≠ [] := by
  rw [Nat.toList_repr]
  exact Nat.toDigits_ne_nil

theorem resourceLine_injective : Function.Injective resourceLine := by
  intro a b same
  cases a with
  | none =>
    cases b with
    | none => rfl
    | some => exact absurd same.symm repr_ne_nil
  | some id =>
    cases b with
    | none => exact absurd same repr_ne_nil
    | some id' =>
      have text : id.repr = id'.repr := String.toList_injective same
      rw [Nat.repr_inj.1 text]

/-! ### The message determines its fields -/

variable {fields : Fields}

theorem Fields.message_eq :
    fields.message = "renga-job-lease-v1".toList ++ '\n' ::
      (fields.jobId.repr.toList ++ '\n' :: (fields.token.toList ++ '\n' ::
        (fields.nonce.toList ++ '\n' :: ((fields.installationId.toList ++ '\n' ::
          resourceLine fields.resourceId ++ '\n' ::
            (toString fields.bindingVersion).toList) ++ '\n' :: [])))) := by
  simp only [message, SignedLeases.message, joinLines, flatMap_cons, flatMap_nil,
    append_assoc, cons_append, nil_append, append_nil, resourceLine]
  rfl

/-- **A signature speaks for one offer**: two fields with one text are the same. -/
theorem message_injective {fields' : Fields} (line : fields.OneLine) (line' : fields'.OneLine)
    (same : fields.message = fields'.message) : fields = fields' := by
  rw [Fields.message_eq, Fields.message_eq] at same
  have context := append_cancel_left same
  have body := (cons.inj context).2
  -- From the front: the job, the token and the nonce.
  obtain ⟨jobId, body⟩ := Lines.split_front oneLine_repr oneLine_repr body
  obtain ⟨token, body⟩ := Lines.split_front line.1 line'.1 body
  obtain ⟨nonce, body⟩ := Lines.split_front line.2 line'.2 body
  -- From the back: the version and the resource.
  have fields_eq := (Lines.split_back not_mem_nil not_mem_nil body).1
  obtain ⟨body, version⟩ :=
    Lines.split_back oneLine_toString_int oneLine_toString_int fields_eq
  obtain ⟨installation, resource⟩ :=
    Lines.split_back oneLine_resourceLine oneLine_resourceLine body
  have jobId_eq := Nat.repr_inj.1 (String.toList_injective jobId)
  have version_eq := Int.repr_inj.1 (String.toList_injective version)
  cases fields
  cases fields'
  simp only [Fields.mk.injEq]
  exact ⟨jobId_eq, String.toList_injective token, String.toList_injective nonce,
    String.toList_injective installation, resourceLine_injective resource, version_eq⟩

end Renga.Jobs.SignedLeases
