import ForgetOps.Library.Json
import ForgetOps.Library.Recency

/-
  `DeliveryDeduplicator` (`agent/crates/agent-core/src/connection.rs`).

  A job id is accepted unless it is among the last `capacity` ids that were: `insertionOrder` is
  these ids, and `jobIds` is the set of them.
-/

namespace ForgetOps.Agent

/-- The fields of a message that the deduplicator reads. -/
structure DeliveredMessage where
  messageType : String
  payload : Json String

/-- `payload.get("jobId")` as a string that is not empty. -/
def DeliveredMessage.jobId (message : DeliveredMessage) : Option String :=
  match message.payload with
  | .object members =>
    ((Json.named "jobId" members).getLast?.bind Json.asString).filter fun jobId => jobId ≠ ""
  | _ => none

inductive DeliveryError where
  | unsupportedMessageType
  | missingJobId
  deriving DecidableEq, Repr

def DeliveryError.display : DeliveryError → String
  | .unsupportedMessageType => "delivery is not a job.available message"
  | .missingJobId => "delivery payload is missing jobId"

structure DeliveryDeduplicator where
  capacity : Nat
  jobIds : Finset String
  insertionOrder : List String

namespace DeliveryDeduplicator

/-- A capacity of zero panics. -/
def new (capacity : Nat) : Option DeliveryDeduplicator :=
  if capacity > 0 then some ⟨capacity, ∅, []⟩ else none

variable (d : DeliveryDeduplicator)

/-- The oldest id makes room where there is none. -/
def evict : DeliveryDeduplicator :=
  if d.jobIds.card = d.capacity then
    match d.insertionOrder with
    | [] => d
    | evictedJobId :: insertionOrder =>
      { d with jobIds := d.jobIds.erase evictedJobId, insertionOrder }
  else d

def insertId (jobId : String) : DeliveryDeduplicator :=
  { d with jobIds := insert jobId d.jobIds, insertionOrder := d.insertionOrder ++ [jobId] }

def accept (message : DeliveredMessage) : Except DeliveryError Bool × DeliveryDeduplicator :=
  if message.messageType ≠ "job.available" then (.error .unsupportedMessageType, d)
  else
    match message.jobId with
    | none => (.error .missingJobId, d)
    | some jobId =>
      if jobId ∈ d.jobIds then (.ok false, d)
      else (.ok true, d.evict.insertId jobId)

end DeliveryDeduplicator

/-! ## Runs -/

/-- A deduplicator, and the ids for which it has answered `true`, the oldest first. -/
structure Deliveries where
  deduplicator : DeliveryDeduplicator
  accepted : List String

def Deliveries.deliver (s : Deliveries) (message : DeliveredMessage) : Deliveries where
  deduplicator := (s.deduplicator.accept message).2
  accepted :=
    match (s.deduplicator.accept message).1 with
    | .ok true => s.accepted ++ message.jobId.toList
    | _ => s.accepted

def Deliveries.run (s : Deliveries) (messages : List DeliveredMessage) : Deliveries :=
  messages.foldl Deliveries.deliver s

/-- The ids that are remembered are the last that were accepted. -/
structure Windowed (capacity : Nat) (s : Deliveries) : Prop where
  capacity_eq : s.deduplicator.capacity = capacity
  jobIds_eq : s.deduplicator.jobIds = s.deduplicator.insertionOrder.toFinset
  nodup : s.deduplicator.insertionOrder.Nodup
  bounded : s.deduplicator.insertionOrder.length ≤ capacity
  recent : s.deduplicator.insertionOrder = s.accepted.rtake capacity

/-- What the next call answers: an error leaves everything, and an id is accepted exactly when it is
    not among the last `capacity` that were. -/
structure Answers (capacity : Nat) (s : Deliveries) (message : DeliveredMessage) : Prop where
  refused : ∀ e, (s.deduplicator.accept message).1 = .error e →
    (s.deduplicator.accept message).2 = s.deduplicator
  accepts : ∀ b, (s.deduplicator.accept message).1 = .ok b →
    ∃ jobId, message.jobId = some jobId ∧ (b = true ↔ jobId ∉ s.accepted.rtake capacity)

variable {capacity : Nat} {s : Deliveries}

/-! ## One call -/

/-- A call is refused, or it is about an id that is known, or about a new one. -/
theorem accept_cases (d : DeliveryDeduplicator) (message : DeliveredMessage) :
    (∃ e, d.accept message = (.error e, d)) ∨
    ∃ jobId, message.jobId = some jobId ∧
      (jobId ∈ d.jobIds ∧ d.accept message = (.ok false, d) ∨
        jobId ∉ d.jobIds ∧ d.accept message = (.ok true, d.evict.insertId jobId)) := by
  unfold DeliveryDeduplicator.accept
  by_cases htype : message.messageType ≠ "job.available"
  · rw [if_pos htype]
    exact .inl ⟨_, rfl⟩
  · rw [if_neg htype]
    cases hid : message.jobId with
    | none => exact .inl ⟨_, rfl⟩
    | some jobId =>
      refine .inr ⟨jobId, rfl, ?_⟩
      by_cases hknown : jobId ∈ d.jobIds
      · exact .inl ⟨hknown, if_pos hknown⟩
      · exact .inr ⟨hknown, if_neg hknown⟩

theorem Windowed.mem_iff (h : Windowed capacity s) (jobId : String) :
    jobId ∈ s.deduplicator.jobIds ↔ jobId ∈ s.accepted.rtake capacity := by
  rw [h.jobIds_eq, List.mem_toFinset, h.recent]

/-- What is left of the ids once the oldest has made room. -/
theorem Windowed.evicted (h : Windowed capacity s) :
    s.deduplicator.evict.insertionOrder =
        (if s.deduplicator.insertionOrder.length = capacity then s.deduplicator.insertionOrder.tail
          else s.deduplicator.insertionOrder) ∧
      s.deduplicator.evict.jobIds = s.deduplicator.evict.insertionOrder.toFinset ∧
      s.deduplicator.evict.capacity = capacity := by
  have hcard : s.deduplicator.jobIds.card = s.deduplicator.insertionOrder.length := by
    rw [h.jobIds_eq]
    exact List.toFinset_card_of_nodup h.nodup
  unfold DeliveryDeduplicator.evict
  rw [hcard, h.capacity_eq]
  by_cases hfull : s.deduplicator.insertionOrder.length = capacity
  · rw [if_pos hfull, if_pos hfull]
    have hnodup := h.nodup
    have hids := h.jobIds_eq
    cases horder : s.deduplicator.insertionOrder with
    | nil =>
      rw [horder] at hids
      exact ⟨horder, by rw [horder, hids], h.capacity_eq⟩
    | cons oldest rest =>
      rw [horder] at hnodup hids
      have hnew : oldest ∉ rest := (List.nodup_cons.mp hnodup).1
      refine ⟨rfl, ?_, rfl⟩
      dsimp only
      rw [hids, List.toFinset_cons, Finset.erase_insert]
      rwa [List.mem_toFinset]
  · rw [if_neg hfull, if_neg hfull]
    exact ⟨rfl, h.jobIds_eq, h.capacity_eq⟩

/-- One call keeps the window. -/
theorem Windowed.deliver (hcapacity : 0 < capacity) (h : Windowed capacity s)
    (message : DeliveredMessage) : Windowed capacity (s.deliver message) := by
  unfold Deliveries.deliver
  rcases accept_cases s.deduplicator message with ⟨e, haccept⟩ | ⟨jobId, hid, hcases⟩
  · rw [haccept]
    exact h
  · rcases hcases with ⟨-, haccept⟩ | ⟨hnew, haccept⟩
    · rw [haccept]
      exact h
    · obtain ⟨horder, hids, hsame⟩ := h.evicted
      have hkeep : Recency.keep capacity s.accepted jobId = s.accepted ++ [jobId] :=
        if_neg fun hmem => hnew ((h.mem_iff jobId).mpr hmem)
      have hrecent : s.deduplicator.evict.insertionOrder ++ [jobId] =
          (s.accepted ++ [jobId]).rtake capacity := by
        rw [Recency.rtake_concat hcapacity, horder, h.recent]
      have hnodup : ((s.accepted ++ [jobId]).rtake capacity).Nodup := by
        rw [← hkeep]
        apply Recency.nodup_keep
        rw [← h.recent]
        exact h.nodup
      rw [haccept, hid]
      refine ⟨hsame, ?_, ?_, ?_, hrecent⟩
      · show insert jobId s.deduplicator.evict.jobIds =
          (s.deduplicator.evict.insertionOrder ++ [jobId]).toFinset
        rw [hids]
        ext id
        simp
      · show (s.deduplicator.evict.insertionOrder ++ [jobId]).Nodup
        rw [hrecent]
        exact hnodup
      · show (s.deduplicator.evict.insertionOrder ++ [jobId]).length ≤ capacity
        rw [hrecent, Recency.length_rtake]
        exact Nat.min_le_left _ _

theorem Windowed.answers (h : Windowed capacity s) (message : DeliveredMessage) :
    Answers capacity s message := by
  rcases accept_cases s.deduplicator message with ⟨e, haccept⟩ | ⟨jobId, hid, hcases⟩
  · refine ⟨fun _ _ => ?_, fun b hb => ?_⟩
    · rw [haccept]
    · rw [haccept] at hb
      cases hb
  · rcases hcases with ⟨hknown, haccept⟩ | ⟨hnew, haccept⟩
    · refine ⟨fun e he => ?_, fun b hb => ⟨jobId, hid, ?_⟩⟩
      · rw [haccept]
      · rw [haccept] at hb
        cases hb
        exact iff_of_false Bool.false_ne_true (not_not.mpr ((h.mem_iff jobId).mp hknown))
    · refine ⟨fun e he => ?_, fun b hb => ⟨jobId, hid, ?_⟩⟩
      · rw [haccept] at he
        cases he
      · rw [haccept] at hb
        cases hb
        exact iff_of_true rfl fun hmem => hnew ((h.mem_iff jobId).mpr hmem)

/-! ## Every run -/

def available (jobId : String) : DeliveredMessage :=
  ⟨"job.available", .object [("jobId", .string jobId)]⟩

end ForgetOps.Agent
