import ForgetOps.Agent.DestructiveErase
import ForgetOps.Library.Guards

/-
  The canonical identity of a subject (`agent/crates/agent-core/src/subject.rs`).

  What `str::to_lowercase` answers is given; nothing here depends on it.
-/

namespace ForgetOps.Agent.Subject

open Connector (SubjectIdentity nonEmpty)

inductive SubjectIdentifierKind where
  | email
  deriving DecidableEq, Repr

inductive SubjectIdentityError where
  | subjectIdentifierRequired
  deriving DecidableEq, Repr

variable (toLowercase : String → String)

def canonicalIdentity (subject : SubjectIdentity) : Except SubjectIdentityError String :=
  match nonEmpty subject.applicationUserId with
  | some applicationUserId => .ok ("app_user_id:" ++ applicationUserId)
  | none =>
    match nonEmpty subject.email with
    | some email => .ok ("email:" ++ toLowercase email)
    | none => .error .subjectIdentifierRequired

def canonicalAliases (subject : SubjectIdentity) :
    Except SubjectIdentityError (List (SubjectIdentifierKind × String)) := do
  let _ ← canonicalIdentity toLowercase subject
  let hasApplicationUserId := (nonEmpty subject.applicationUserId).isSome
  return match hasApplicationUserId, nonEmpty subject.email with
    | true, some email => [(.email, "email:" ++ toLowercase email)]
    | _, _ => []

variable {toLowercase} {subject : SubjectIdentity}

theorem canonicalIdentity_of_email {email : String}
    (hnone : nonEmpty subject.applicationUserId = none) (h : nonEmpty subject.email = some email) :
    canonicalIdentity toLowercase subject = .ok ("email:" ++ toLowercase email) := by
  rw [canonicalIdentity, hnone, h]

/-- There is an identity just if there is an identifier. -/
theorem canonicalIdentity_isOk_iff :
    (∃ identity, canonicalIdentity toLowercase subject = .ok identity) ↔
      nonEmpty subject.applicationUserId ≠ none ∨ nonEmpty subject.email ≠ none := by
  unfold canonicalIdentity
  cases nonEmpty subject.applicationUserId <;> cases nonEmpty subject.email <;> simp

/-- Users are told from addresses by the first letter of their identities. -/
theorem user_ne_email (user email : String) : "app_user_id:" ++ user ≠ "email:" ++ email := by
  intro h
  have hlists := congrArg String.toList h
  rw [String.toList_append, String.toList_append] at hlists
  exact absurd (List.cons.inj hlists).1 (by decide)

/-- Two subjects of one identity are one user, or have one address but for its case. -/
theorem same_identity_cases {a b : SubjectIdentity} {identity : String}
    (ha : canonicalIdentity toLowercase a = .ok identity)
    (hb : canonicalIdentity toLowercase b = .ok identity) :
    (∃ user, nonEmpty a.applicationUserId = some user ∧ nonEmpty b.applicationUserId = some user) ∨
      (nonEmpty a.applicationUserId = none ∧ nonEmpty b.applicationUserId = none ∧
        ∃ emailA emailB, nonEmpty a.email = some emailA ∧ nonEmpty b.email = some emailB ∧
          toLowercase emailA = toLowercase emailB) := by
  unfold canonicalIdentity at ha hb
  split at ha <;> split at hb
  · next userA hA _ userB hB =>
    have heq := (Except.ok.inj ha).trans (Except.ok.inj hb).symm
    rw [String.append_right_inj] at heq
    exact .inl ⟨userA, hA, heq ▸ hB⟩
  · split at hb
    · exact absurd ((Except.ok.inj ha).trans (Except.ok.inj hb).symm) (user_ne_email _ _)
    · cases hb
  · split at ha
    · exact absurd ((Except.ok.inj hb).trans (Except.ok.inj ha).symm) (user_ne_email _ _)
    · cases ha
  · next hA _ hB =>
    split at ha
    · next emailA hemailA =>
      split at hb
      · next emailB hemailB =>
        have heq := (Except.ok.inj ha).trans (Except.ok.inj hb).symm
        rw [String.append_right_inj] at heq
        exact .inr ⟨hA, hB, emailA, emailB, hemailA, hemailB, heq⟩
      · cases hb
    · cases ha

/-- An alias is the identity of its address alone. -/
theorem canonicalAliases_identity {aliases : List (SubjectIdentifierKind × String)}
    (h : canonicalAliases toLowercase subject = .ok aliases) {kind : SubjectIdentifierKind}
    {identity : String} (hmem : (kind, identity) ∈ aliases) :
    canonicalIdentity toLowercase { subject with applicationUserId := none } = .ok identity := by
  unfold canonicalAliases at h
  obtain ⟨_, -, h⟩ := Guards.bind_ok.mp h
  obtain rfl := Guards.pure_ok.mp h
  split at hmem
  · next email _ hemail =>
    rw [List.mem_singleton] at hmem
    rw [(Prod.mk.inj hmem).2]
    exact canonicalIdentity_of_email rfl hemail
  · cases hmem

end ForgetOps.Agent.Subject
