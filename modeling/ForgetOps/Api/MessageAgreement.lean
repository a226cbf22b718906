import ForgetOps.Agent.MessageSigning
import ForgetOps.Api.MessageReplay
import ForgetOps.Library.Histories

/-
  The messages of an agent and what the gateway answers to, in every interleaving.

  `agentSystem` is the system of `MessageReplay` where messages come from the bodies that are
  presented, which may be anybody's, and claims from messages alone. What is handled in the name of
  an agent are messages its key has signed, each at most once and in the order of their sequences
  (`messages_as_emitted`); what the agent signs in order is handled in order (`messages_delivered`).
-/

namespace ForgetOps.Api.Gateway

open AgentProtocol (Conforms Says messageSigningBytes signMessage)
open Database ReadCommitted RowStore Calendar
open Json (JsString jsString)
open Pairing (PairingProofFields createPairingProofPayload)
open Signer (base64url signingMaterial)

/-! ## The system -/

/-- A value of `JSON.parse`. -/
abbrev JsValue := { v : Json JsString // v.distinct }

section System

variable {PrivateKey : Type} (lib : ProtocolLibraries PrivateKey) (Presented : JsValue → Prop)

/-- A message that is read from a body that is presented. -/
def Reads (message : AgentMessage) : Prop :=
  ∃ body, Presented body ∧ AgentMessageSchema body.val = some message

def agentSystem : ReadCommitted.System Store GatewayRow MessageRequest MessageReply :=
  { messageSystem lib.messages with
    starts := fun _ request =>
      match request with
      | .authenticate message _ => Reads Presented message
      | .claim _ => False
      | .revoke _ _ => True }

end System

/-- The messages that were answered with the agent. -/
def handled (agentId : String) (history : List (MessageRequest × MessageReply)) :
    List AgentMessage :=
  history.filterMap fun
    | (.authenticate message _, .authenticated (.ok _)) =>
      if message.agentId = agentId then some message else none
    | _ => none

/-- What a message is recorded as. -/
def recorded (message : AgentMessage) : String × Nat :=
  (message.messageId, (bigInt message.sequence).getD 0)

/-! ## Keys -/

/-- What every commit keeps, of the agents that stand in `w₀`. -/
structure Settled (w₀ w : Store) : Prop where
  received : Received w
  keys : ∀ id, (w.agents.find id).map (·.publicSigningKey) =
    (w₀.agents.find id).map (·.publicSigningKey)

section Keys

variable {w₀ w w' : Store}

theorem keys_set {agents : Table String AgentRow} {agentId : String} {agent agent' : AgentRow}
    (hstored : agents.find agentId = some agent)
    (hkey : agent'.publicSigningKey = agent.publicSigningKey) (id : String) :
    ((agents.set agentId (some agent')).find id).map (·.publicSigningKey) =
      (agents.find id).map (·.publicSigningKey) := by
  by_cases hid : id = agentId
  · rw [hid, Table.find_set_self, hstored, Option.map_some, Option.map_some, hkey]
  · rw [Table.find_set_of_ne _ _ hid]

theorem MessageStep.keys {event : Option MessageEvent} (h : MessageStep w w' event) (id : String) :
    (w'.agents.find id).map (·.publicSigningKey) =
      (w.agents.find id).map (·.publicSigningKey) := by
  cases h with
  | accept accepts _ _ =>
    refine keys_set accepts.stored ?_ id
    rfl
  | revoke stored =>
    refine keys_set stored ?_ id
    rfl
  | revoked _ _ => rfl
  | idle => rfl

theorem MessageStep.settled {event : Option MessageEvent} (h : MessageStep w w' event)
    (hw : Settled w₀ w) : Settled w₀ (w'.record event) where
  received := h.received hw.received
  keys id := (h.keys id).trans (hw.keys id)

end Keys

section Agreement

variable {PrivateKey : Type} {lib : ProtocolLibraries PrivateKey} {Presented : JsValue → Prop}
  {w₀ w : Store}

theorem starts_agent {request : MessageRequest}
    (h : (agentSystem lib Presented).starts w request) : request.Starts := by
  cases request with
  | claim input => exact h.elim
  | _ => trivial

theorem guarantee_agent :
    Guarantee (agentSystem lib Presented) (Settled w₀) fun _ => Undisturbed where
  rely _ := rely_undisturbed
  environment _ h := h.elim
  commit := by
    intro w u request reply log hw _ hstarts _ hcompletes
    have hR := rely_undisturbed.within (Settled w₀)
    have hstep := script_step (starts_agent hstarts) (hcompletes.leads hR) (locks_nil w)
    refine ⟨hstep.settled hw, ?_⟩
    intro _ held hdisjoint
    have hundisturbed := hstep.undisturbed (sameRows_view hdisjoint)
    exact ⟨hundisturbed.rows, hundisturbed.environments, hundisturbed.bound, hundisturbed.revoked⟩

/-! ## What is accepted -/

theorem checkIdentity_ok {message : AgentMessage} {identity : Option GatewayAgentIdentity}
    {agent : GatewayAgentIdentity} (h : checkIdentity lib.messages message identity = .ok agent) :
    identity = some agent ∧ message.direction = .agentToControl ∧
      verifyAgentMessage lib.messages message agent.publicSigningKey = true := by
  cases identity with
  | none => cases h
  | some agent' =>
    unfold checkIdentity at h
    dsimp only at h
    split_ifs at h with hidentity
    obtain rfl := Except.ok.inj h
    rw [not_or, not_or, not_not, not_not, not_not] at hidentity
    exact ⟨rfl, hidentity.2⟩

/-- An accepted message was verified under the key of its agent. -/
theorem authenticate_verified {message : AgentMessage} {receivedAt : Int}
    {agent : GatewayAgentIdentity} {u : Store} {p' : Point Store GatewayRow}
    (hu : Settled w₀ u)
    (h : Leads (Within (Settled w₀) Undisturbed) w (authenticate lib.messages message receivedAt)
      ⟨u, []⟩ (.ok agent) p') :
    ∃ row, w₀.agents.find message.agentId = some row ∧ message.direction = .agentToControl ∧
      verifyAgentMessage lib.messages message row.publicSigningKey = true := by
  have hR := rely_undisturbed.within (Settled w₀)
  unfold authenticate at h
  split at h
  · cases (leads_pure hR h).1
  · obtain ⟨identity, p₁, hread, h⟩ := leads_bind hR h
    obtain ⟨-, v, hidentity, huv, -⟩ := leads_read hR hread
    split at h
    · cases (leads_pure hR h).1
    · next agent' hchecked =>
      obtain ⟨claim, p₂, -, h⟩ := leads_bind hR h
      obtain ⟨hanswer, -⟩ := leads_pure hR h
      obtain ⟨hfound, hdirection, hverified⟩ := checkIdentity_ok hchecked
      rw [hfound] at hidentity
      obtain ⟨row, hrow, hidentity⟩ := Option.bind_eq_some_iff.mp hidentity.symm
      obtain ⟨tenantId, -, hidentity⟩ := Option.bind_eq_some_iff.mp hidentity
      have hkeys := (huv.2 hu).keys message.agentId
      have hrow : v.agents.find message.agentId = some row := hrow
      rw [hrow] at hkeys
      obtain ⟨row₀, hrow₀, hsame⟩ := Option.map_eq_some_iff.mp hkeys.symm
      have hkey : agent'.publicSigningKey = row₀.publicSigningKey := by
        rw [← Option.some.inj hidentity, hsame]
        rfl
      exact ⟨row₀, hrow₀, hdirection, hkey ▸ hverified⟩

/-- What the history says of the store. -/
structure Handles (lib : ProtocolLibraries PrivateKey) (Presented : JsValue → Prop) (w₀ : Store)
    (history : List (MessageRequest × MessageReply)) (w : Store) : Prop where
  messages : w.messages = history.filterMap fun e => e.1.event e.2
  unclaimed : ∀ e ∈ history, ∀ input, e.1 ≠ .claim input
  verified : ∀ message receivedAt agent,
    (.authenticate message receivedAt, .authenticated (.ok agent)) ∈ history →
      Reads Presented message ∧ ∃ row, w₀.agents.find message.agentId = some row ∧
        verifyAgentMessage lib.messages message row.publicSigningKey = true

theorem MessageStep.messages {w' : Store} {event : Option MessageEvent}
    (h : MessageStep w w' event) : w'.messages = w.messages := by
  cases h with
  | accept | revoke | revoked | idle => rfl

theorem handles_of_committed (hw : w₀.Unheard)
    {history : List (MessageRequest × MessageReply)}
    {c : Conf Store GatewayRow MessageRequest MessageReply}
    (hc : Committed (agentSystem lib Presented) w₀ history c) :
    Handles lib Presented w₀ history c.world := by
  have hG : Guarantee (agentSystem lib Presented) (Settled w₀) fun _ => Undisturbed :=
    guarantee_agent
  refine hc.invariant hG ⟨hw.received, fun _ => rfl⟩
    ⟨hw.messages, by simp, by simp⟩ ?_ fun _ _ h => h.elim
  intro history w u request reply log hhandles hinv hu hstarts _ hcompletes
  have hR := rely_undisturbed.within (Settled w₀)
  have hleads := hcompletes.leads hR
  have hstep := script_step (starts_agent hstarts) hleads (locks_nil w)
  constructor
  · show (view w log).messages ++ (request.event reply).toList = _
    rw [hstep.messages, hhandles.messages, List.filterMap_append]
    rfl
  · intro e he input
    rcases List.mem_append.mp he with he | he
    · exact hhandles.unclaimed e he input
    · rw [List.mem_singleton.mp he]
      rintro rfl
      exact hstarts
  · intro message receivedAt agent he
    rcases List.mem_append.mp he with he | he
    · exact hhandles.verified message receivedAt agent he
    · obtain ⟨hrequest, hreply⟩ := Prod.mk.inj (List.mem_singleton.mp he)
      subst hrequest hreply
      obtain ⟨result, p₁, hauthenticate, hreturn⟩ := leads_bind hR hleads
      obtain ⟨hresult, -⟩ := leads_pure hR hreturn
      obtain rfl := MessageReply.authenticated.inj hresult
      obtain ⟨row, hrow, -, hverified⟩ := authenticate_verified hu hauthenticate
      exact ⟨hstarts, row, hrow, hverified⟩

/-! ## What was signed -/

variable (lib) in
/-- What the key has signed: these messages, and pairing requests. -/
inductive SignedBytes (Emitted : AgentProtocol.AgentMessage → Prop) : List UInt8 → Prop
  | message (message : AgentProtocol.AgentMessage) (h : Emitted message) :
    SignedBytes Emitted (messageSigningBytes lib message)
  | pairing (fields : PairingProofFields) :
    SignedBytes Emitted (createPairingProofPayload lib.pairing fields)

variable (lib Presented) in
/-- Who presents a signature of the key has it from its holder. -/
def Unforged (key : PrivateKey) (Emitted : AgentProtocol.AgentMessage → Prop) : Prop :=
  ∀ message signature bytes, Reads Presented message → message.signature = base64url signature →
    lib.agentMessageSigningBytes message = some bytes →
    lib.ed.verify (lib.ed.publicKey key) bytes signature = true → SignedBytes lib Emitted bytes

section Emitted

variable {key : PrivateKey} {Emitted : AgentProtocol.AgentMessage → Prop} {message : AgentMessage}

theorem signingMaterial_injective {context : String} {canonical canonical' : List UInt8}
    (h : signingMaterial context canonical = signingMaterial context canonical') :
    canonical = canonical' :=
  (List.cons.inj (List.append_cancel_left h)).2

theorem bytes_of_payload {payload : Json JsString} {bytes : List UInt8}
    (hpayload : message.payload = String.ofList payload.stringify)
    (h : lib.agentMessageSigningBytes message = some bytes) :
    bytes = signingMaterial messageSigningContext
      (lib.canonicalize (.object (unsignedMembers message payload))) := by
  obtain ⟨canonical, hcanonical, rfl⟩ := Option.map_eq_some_iff.mp h
  unfold ProtocolLibraries.canonicalUnsignedBytes at hcanonical
  split_ifs at hcanonical
  rw [hpayload, String.toList_ofList, Json.parse_stringify, Option.map_some] at hcanonical
  rw [Option.some.inj hcanonical]

/-- What is verified under the key says what a message of its holder says. -/
theorem emitted_of_verified (hcanonical : Json.Canonicalizes lib.canonicalize)
    (hunforged : Unforged lib Presented key Emitted) (hreads : Reads Presented message)
    (hverified : verifyAgentMessage lib.messages message (base64url (lib.ed.publicKey key)) = true) :
    ∃ emitted, Emitted emitted ∧ Says message emitted := by
  obtain ⟨key', signature, bytes, -, -, hkey, hsignature, hbytes, hverify⟩ :=
    verifyAgentMessage_iff.mp hverified
  rw [← Pairing.base64url_injective hkey] at hverify
  have hsigned := hunforged message signature bytes hreads hsignature hbytes hverify
  obtain ⟨body, -, hread⟩ := hreads
  obtain ⟨payload, hdistinct, hpayload⟩ := payload_of_schema body.property hread
  have hmaterial := bytes_of_payload hpayload hbytes
  cases hsigned with
  | message emitted hemitted =>
    refine ⟨emitted, hemitted, AgentProtocol.says_of_bytes hcanonical hdistinct hpayload ?_⟩
    exact (signingMaterial_injective hmaterial).symm
  | pairing fields =>
    -- a pairing request opens a brace, and a message opens with its context
    have hopens := hcanonical.opens (Json.mapMembers jsString (Pairing.proofMembers fields))
    have hsame : lib.canonicalize (.object (Json.mapMembers jsString (Pairing.proofMembers fields))) =
      signingMaterial messageSigningContext
        (lib.canonicalize (.object (unsignedMembers message payload))) := hmaterial
    rw [hsame] at hopens
    cases hopens

/-- Each has one of its own, in the same order. -/
theorem exists_forall₂ {α β : Type} {P : β → Prop} {Q : α → β → Prop} {as : List α}
    (h : ∀ a ∈ as, ∃ b, P b ∧ Q a b) : ∃ bs, List.Forall₂ Q as bs ∧ ∀ b ∈ bs, P b := by
  induction as with
  | nil => exact ⟨[], .nil, by simp⟩
  | cons a as ih =>
    obtain ⟨b, hb, hab⟩ := h a List.mem_cons_self
    obtain ⟨bs, hall, hbs⟩ := ih fun a' ha' => h a' (List.mem_cons_of_mem _ ha')
    refine ⟨b :: bs, .cons hab hall, fun b' hb' => ?_⟩
    rcases List.mem_cons.mp hb' with rfl | hb'
    · exact hb
    · exact hbs b' hb'

theorem map_of_forall₂ {α β γ : Type} {Q : α → β → Prop} {as : List α} {bs : List β} {f : α → γ}
    {g : β → γ} (h : List.Forall₂ Q as bs) (hQ : ∀ a b, Q a b → f a = g b) :
    as.map f = bs.map g := by
  have hall : List.Forall₂ (· = ·) (as.map f) (bs.map g) :=
    List.forall₂_map_left_iff.mpr (List.forall₂_map_right_iff.mpr (h.imp hQ))
  rwa [List.forall₂_eq_eq_eq] at hall

theorem acceptedFrom_history {history : List (MessageRequest × MessageReply)}
    (hunclaimed : ∀ e ∈ history, ∀ input, e.1 ≠ .claim input) (agentId : String) :
    acceptedFrom agentId (history.filterMap fun e => e.1.event e.2) =
      (handled agentId history).map recorded := by
  unfold acceptedFrom handled
  rw [List.filterMap_filterMap, List.map_filterMap]
  refine List.filterMap_congr fun e he => ?_
  obtain ⟨request, reply⟩ := e
  cases request with
  | authenticate message receivedAt =>
    cases reply with
    | authenticated result =>
      cases result with
      | error => rfl
      | ok agent =>
        show (if message.agentId = agentId then _ else none) = Option.map recorded (if _ then _ else _)
        split_ifs <;> rfl
    | claimed | revoked => rfl
  | claim input => exact (hunclaimed _ he input rfl).elim
  | revoke tenantId id =>
    cases reply with
    | authenticated | claimed | revoked => rfl

/-- **Messages are handled as emitted.** Whatever is presented, and in every interleaving of the
    transactions: what is handled in the name of an agent says what its key's holder has signed,
    each message at most once and in the order of the sequences, and nothing after a revocation. -/
theorem messages_as_emitted (hcanonical : Json.Canonicalizes lib.canonicalize)
    (hunforged : Unforged lib Presented key Emitted) (hw : w.Unheard)
    {history : List (MessageRequest × MessageReply)}
    {c : Conf Store GatewayRow MessageRequest MessageReply}
    (hc : Committed (agentSystem lib Presented) w history c) {agentId : String} {row : AgentRow}
    (hrow : w.agents.find agentId = some row)
    (hkey : row.publicSigningKey = base64url (lib.ed.publicKey key)) :
    ∃ sent : List AgentProtocol.AgentMessage,
      List.Forall₂ Says (handled agentId history) sent ∧ (∀ message ∈ sent, Emitted message) ∧
      (sent.map (·.messageId)).Nodup ∧
      (sent.map fun message => (bigInt message.sequence).getD 0).Pairwise (· < ·) ∧
      ∀ before tenantId after, history = before ++ (.revoke tenantId agentId, .revoked) :: after →
        handled agentId after = [] := by
  have hhandles := handles_of_committed hw hc
  have hG : Guarantee (agentSystem lib Presented) (Settled w) fun _ => Undisturbed :=
    guarantee_agent
  have hfree := (hc.reachable.invariant hG ⟨hw.received, fun _ => rfl⟩).received.replayFree
  have haccepted := acceptedFrom_history hhandles.unclaimed agentId
  rw [← hhandles.messages] at haccepted
  have heach : ∀ message ∈ handled agentId history,
      ∃ emitted, Emitted emitted ∧ Says message emitted := by
    intro message hmessage
    obtain ⟨⟨request, reply⟩, he, hanswer⟩ := List.mem_filterMap.mp hmessage
    split at hanswer
    · next message' receivedAt agent heq =>
      split_ifs at hanswer with hid
      obtain rfl := Option.some.inj hanswer
      rw [heq] at he
      obtain ⟨hreads, row', hrow', hverified⟩ := hhandles.verified _ _ _ he
      rw [hid, hrow] at hrow'
      rw [← Option.some.inj hrow', hkey] at hverified
      exact emitted_of_verified hcanonical hunforged hreads hverified
    · cases hanswer
  obtain ⟨sent, hsaid, hemitted⟩ := exists_forall₂ heach
  refine ⟨sent, hsaid, hemitted, ?_, ?_, ?_⟩
  · have hids := hfree.messageIds agentId
    rw [haccepted, List.map_map] at hids
    rwa [← map_of_forall₂ hsaid fun _ _ h => h.messageId]
  · have hsequences := hfree.increasing agentId
    rw [haccepted, List.map_map] at hsequences
    rwa [← map_of_forall₂ hsaid fun _ _ h => congrArg (fun s => (bigInt s).getD 0) h.sequence]
  · intro before tenantId after hsplit
    have hafter : ∀ e ∈ after, ∀ input, e.1 ≠ .claim input := by
      intro e he
      refine hhandles.unclaimed e ?_
      rw [hsplit]
      exact List.mem_append_right _ (List.mem_cons_of_mem _ he)
    have hmessages := hhandles.messages
    rw [hsplit, List.filterMap_append, List.filterMap_cons] at hmessages
    have hnone := hfree.afterRevocation agentId _ _ hmessages
    rw [acceptedFrom_history hafter agentId] at hnone
    exact List.map_eq_nil_iff.mp hnone

end Emitted

end Agreement

/-! ## Delivery -/

section Claims

variable {w : Store} {input : ClaimAgentMessageInput} {row : AgentRow} {n last : Nat}

/-- The rows that an accepted claim holds. -/
def claimLog (input : ClaimAgentMessageInput) (row : AgentRow) : Log GatewayRow := [
  ⟨.agent input.agentId, some row⟩,
  ⟨.receipt ⟨input.agentId, input.messageId⟩,
    some { sequence := input.sequence, receivedAt := input.receivedAt }⟩,
  ⟨.agent input.agentId, some { row with lastSequence := input.sequence }⟩]

theorem locks_agent (hfound : w.agents.find input.agentId = some row) :
    Locks w ([⟨.agent input.agentId, some row⟩] : Log GatewayRow) := by
  intro e he
  rw [List.mem_singleton.mp he]
  exact hfound.symm

theorem lockAgent_run {tenantId : String} (hfound : w.agents.find input.agentId = some row)
    (htenant : tenantOf w.environments row.environmentId = some tenantId) :
    (lockAgent tenantId input.agentId).run w [] [] =
      .ok ⟨some (tenantId, row), w, [⟨.agent input.agentId, some row⟩], []⟩ := by
  unfold lockAgent
  rw [run_read, run_update (b := row) (v := some row) _ (lockRow_eq_some.mpr ⟨hfound, htenant, hfound.symm⟩)]
  show Except.ok (⟨(some row).bind fun row => (tenantOf w.environments row.environmentId).map (·, row),
    w, _, []⟩ : Outcome Store GatewayRow _) = _
  rw [Option.bind_some, htenant]
  rfl

theorem recordMessage_run (hfound : w.agents.find input.agentId = some row)
    (hfresh : w.receipts.find ⟨input.agentId, input.messageId⟩ = none) :
    (recordMessage input).run w [⟨.agent input.agentId, some row⟩] [] =
      .ok ⟨(), w, claimLog input row, []⟩ := by
  have hview := (locks_agent hfound).view_eq
  have habsent : whenAbsent
      ({ sequence := input.sequence, receivedAt := input.receivedAt } : ReceiptRow)
      (RowStore.row (view w [⟨.agent input.agentId, some row⟩])
        (.receipt ⟨input.agentId, input.messageId⟩)) =
      some ((), some { sequence := input.sequence, receivedAt := input.receivedAt }) := by
    rw [hview]
    exact whenAbsent_eq_some.mpr ⟨hfresh, rfl⟩
  have hheld : whenRow (fun _ => True) (fun row => { row with lastSequence := input.sequence })
      (RowStore.row (view w (([⟨.agent input.agentId, some row⟩] : Log GatewayRow) ++
        [⟨.receipt ⟨input.agentId, input.messageId⟩,
          some { sequence := input.sequence, receivedAt := input.receivedAt }⟩]))
        (.agent input.agentId)) =
      some (row, some { row with lastSequence := input.sequence }) := by
    rw [view_append, hview]
    exact whenRow_eq_some.mpr ⟨hfound, trivial, rfl⟩
  unfold recordMessage
  rw [run_update _ habsent]
  show (Script.update _ _ >>= _).run w _ [] = _
  rw [run_update _ hheld]
  rfl

/-- A claim of an agent that may send, with a later sequence than any before, is accepted. -/
theorem claimAgentMessage_run (hfound : w.agents.find input.agentId = some row)
    (htenant : tenantOf w.environments row.environmentId = some input.tenantId)
    (hbound : row.environmentId = input.environmentId) (hactive : row.status ≠ .revoked)
    (hn : bigInt input.sequence = some n) (hlast : bigInt row.lastSequence = some last)
    (hlater : last < n) (hfresh : ∀ entry ∈ w.receipts.entries, ¬ isDuplicate input entry) :
    (claimAgentMessage input).run w [] [] = .ok ⟨.accepted, w, claimLog input row, []⟩ := by
  have hview := (locks_agent hfound).view_eq
  have habsent : w.receipts.find ⟨input.agentId, input.messageId⟩ = none := by
    refine Option.eq_none_iff_forall_ne_some.mpr fun receipt hreceipt => ?_
    exact hfresh _ (Table.mem_entries_iff.mpr hreceipt) ⟨rfl, .inl rfl⟩
  have hnone : (w.receipts.entries.find? fun entry => isDuplicate input entry) = none :=
    List.find?_eq_none.mpr fun entry hentry hduplicate =>
      hfresh entry hentry (of_decide_eq_true hduplicate)
  unfold claimAgentMessage
  rw [run_bind (lockAgent_run hfound htenant)]
  dsimp only
  rw [if_neg (not_or.mpr ⟨not_not.mpr rfl, not_not.mpr hbound⟩), if_neg hactive]
  unfold claimSequence
  rw [hn, hlast]
  dsimp only
  rw [if_neg (not_le.mpr hlater), run_read, hview, hnone]
  show (recordMessage input >>= _).run w _ [] = _
  rw [run_bind (recordMessage_run hfound habsent)]
  rfl

theorem view_claimLog (hfound : w.agents.find input.agentId = some row) :
    view w (claimLog input row) = w.accept input row := by
  have hview := (locks_agent hfound).view_eq
  show view (view w [⟨.agent input.agentId, some row⟩]) _ = _
  rw [hview]
  rfl

end Claims

theorem parseSequence_of_schema {value : String} (h : AgentSequenceSchema value = true) :
    parseSequence value = .ok ((bigInt value).getD 0) := by
  obtain ⟨hsequence, hbound⟩ := Bool.and_eq_true_iff.mp h
  unfold parseSequence
  rw [if_pos hsequence]
  cases hvalue : bigInt value with
  | none =>
    rw [hvalue] at hbound
    cases hbound
  | some n =>
    rw [hvalue, Option.any_some, decide_eq_true_eq] at hbound
    exact if_neg (not_lt.mpr hbound)

/-- The identity of an agent is answered for a later message that is verified under its key. -/
theorem authenticate_run {libraries : MessageLibraries} {message : AgentMessage} {receivedAt : Int}
    {tenantId : String} {w : Store} {row : AgentRow} {n last : Nat}
    (hchecked : checkMessage message receivedAt = .ok n)
    (hfound : w.agents.find message.agentId = some row)
    (htenant : tenantOf w.environments row.environmentId = some tenantId)
    (hidentity : checkIdentity libraries message
      (some (toIdentity libraries message.agentId tenantId row)) =
        .ok (toIdentity libraries message.agentId tenantId row))
    (hbound : row.environmentId = message.environmentId) (hactive : row.status ≠ .revoked)
    (hlast : bigInt row.lastSequence = some last) (hlater : last < n)
    (hfresh : ∀ entry ∈ w.receipts.entries, ¬ isDuplicate
      (claimOf message (toIdentity libraries message.agentId tenantId row) n receivedAt) entry) :
    (authenticate libraries message receivedAt).run w [] [] =
      .ok ⟨.ok (toIdentity libraries message.agentId tenantId row), w,
        claimLog (claimOf message (toIdentity libraries message.agentId tenantId row) n receivedAt)
          row, []⟩ := by
  have hread : (do
      let row ← w.agents.find message.agentId
      let tenantId ← tenantOf w.environments row.environmentId
      some (toIdentity libraries message.agentId tenantId row)) =
        some (toIdentity libraries message.agentId tenantId row) := by
    rw [hfound]
    show (tenantOf w.environments row.environmentId).bind _ = _
    rw [htenant]
    rfl
  have hclaim : (claimAgentMessage
      (claimOf message (toIdentity libraries message.agentId tenantId row) n receivedAt)).run
        w [] [] = .ok ⟨.accepted, w, claimLog
          (claimOf message (toIdentity libraries message.agentId tenantId row) n receivedAt) row, []⟩ :=
    claimAgentMessage_run hfound htenant hbound hactive (bigInt_toString n) hlast hlater hfresh
  unfold authenticate
  rw [hchecked]
  dsimp only
  unfold findAgentIdentity
  rw [run_read, view_nil, hread, hidentity]
  dsimp only
  rw [run_bind hclaim]
  rfl

theorem checkIdentity_eq {libraries : MessageLibraries} {message : AgentMessage}
    {agent : GatewayAgentIdentity} (hkeyId : message.keyId = agent.signingKeyId)
    (hdirection : message.direction = .agentToControl)
    (hverified : verifyAgentMessage libraries message agent.publicSigningKey = true)
    (hprotocol : agent.protocolVersion = message.protocolVersion)
    (hbound : agent.environmentId = message.environmentId) (hactive : agent.status ≠ .revoked) :
    checkIdentity libraries message (some agent) = .ok agent := by
  unfold checkIdentity
  dsimp only
  rw [if_neg (not_or.mpr ⟨not_not.mpr hkeyId,
      not_or.mpr ⟨not_not.mpr hdirection, not_not.mpr hverified⟩⟩),
    if_neg (not_not.mpr hprotocol), if_neg (not_not.mpr hbound), if_neg hactive]

/-- The row of an agent that was heard up to this sequence. -/
def heardTo (row : AgentRow) (last : Nat) : AgentRow := { row with lastSequence := toString last }

/-- A message of the agent, the body it is presented in, and when. -/
structure Delivery where
  message : AgentProtocol.AgentMessage
  body : JsValue
  receivedAt : Int

def Delivery.sequence (d : Delivery) : Nat := (bigInt d.message.sequence).getD 0

section Delivered

variable {PrivateKey : Type} {lib : ProtocolLibraries PrivateKey} {Presented : JsValue → Prop}
  {key : PrivateKey} {agentId : String} {row : AgentRow}

variable (lib Presented key agentId row) in
/-- The agent of the row has signed the message, and it is presented in time. -/
structure Deliverable (d : Delivery) : Prop where
  conforms : Conforms d.message .agentToControl
  agentId : d.message.agentId = agentId
  environmentId : d.message.environmentId = row.environmentId
  keyId : d.message.keyId =
    row.signingKeyId.getD (lib.messages.keyIdForPublicKey row.publicSigningKey)
  presented : Presented d.body
  ordered : d.body.val.ordered = (Json.object (signMessage lib d.message key).members).ordered
  timely : ∃ sentAt, IsoTimestamp.parse d.message.sentAt = some sentAt ∧
    |d.receivedAt - sentAt| ≤ messageFreshnessMs

/-- The agent may send, was heard up to this sequence, and not with these messages. -/
structure Heard (w : Store) (agentId : String) (row : AgentRow) (last : Nat)
    (messageIds : List String) : Prop where
  found : w.agents.find agentId = some (heardTo row last)
  tenant : ∃ tenantId, tenantOf w.environments row.environmentId = some tenantId
  active : row.status ≠ .revoked
  protocolVersion : row.protocolVersion = "1.0"
  receipts : ∀ key receipt, w.receipts.find key = some receipt → key.agentId = agentId →
    (∃ n ≤ last, receipt.sequence = toString n) ∧ key.messageId ∉ messageIds

variable {w₀ w : Store} {history : List (MessageRequest × MessageReply)} {last : Nat}

theorem Heard.accept {input : ClaimAgentMessageInput} {messageIds : List String} {n : Nat}
    {event : Option MessageEvent}
    (hw : Heard w agentId row last (input.messageId :: messageIds)) (hagent : input.agentId = agentId)
    (hsequence : input.sequence = toString n) (hle : last ≤ n)
    (hfresh : input.messageId ∉ messageIds) :
    Heard ((w.accept input (heardTo row last)).record event) agentId row n messageIds where
  found := by
    show (w.agents.set input.agentId
      (some { heardTo row last with lastSequence := input.sequence })).find agentId = _
    rw [hagent, Table.find_set_self, hsequence]
    rfl
  tenant := hw.tenant
  active := hw.active
  protocolVersion := hw.protocolVersion
  receipts := by
    intro key receipt hreceipt hkey
    have hset : (w.receipts.set ⟨input.agentId, input.messageId⟩
        (some { sequence := input.sequence, receivedAt := input.receivedAt })).find key =
      some receipt := hreceipt
    by_cases hsame : key = ⟨input.agentId, input.messageId⟩
    · rw [hsame, Table.find_set_self] at hset
      rw [← Option.some.inj hset, hsame]
      exact ⟨⟨n, le_rfl, hsequence⟩, hfresh⟩
    · rw [Table.find_set_of_ne _ _ hsame] at hset
      obtain ⟨⟨m, hm, htext⟩, hnew⟩ := hw.receipts key receipt hset hkey
      exact ⟨⟨m, hm.trans hle, htext⟩, fun hmem => hnew (List.mem_cons_of_mem _ hmem)⟩

/-- One message more is handled. -/
theorem deliver_one (hcanonical : Json.Canonicalizes lib.canonicalize) (hed : lib.ed.Correct)
    (hkey : row.publicSigningKey = base64url (lib.ed.publicKey key)) {d : Delivery}
    {messageIds : List String} (hd : Deliverable lib Presented key agentId row d)
    (hlater : last < d.sequence) (hfresh : d.message.messageId ∉ messageIds)
    (hw : Heard w agentId row last (d.message.messageId :: messageIds))
    (hc : Committed (agentSystem lib Presented) w₀ history ⟨w, fun _ => none⟩) :
    ∃ received agent w', Says received d.message ∧ received.agentId = agentId ∧
      Committed (agentSystem lib Presented) w₀
        (history ++ [(.authenticate received d.receivedAt, .authenticated (.ok agent))])
        ⟨w', fun _ => none⟩ ∧
      Heard w' agentId row d.sequence messageIds := by
  obtain ⟨received, hread, hsaid, hdirection, -, hverified⟩ :=
    AgentProtocol.read_signed hcanonical hed hd.conforms d.body.property hd.ordered
  obtain ⟨tenantId, htenant⟩ := hw.tenant
  obtain ⟨sentAt, hsentAt, htimely⟩ := hd.timely
  obtain ⟨hversion, -, -, -, -, -, hsequence, -⟩ := of_decide_eq_true hd.conforms.unsigned
  have hid : received.agentId = agentId := hsaid.agentId.trans hd.agentId
  have hchecked : checkMessage received d.receivedAt = .ok d.sequence := by
    unfold checkMessage
    rw [if_neg (not_not.mpr (hsaid.protocolVersion.trans hversion)), hsaid.sentAt, hsentAt]
    dsimp only
    rw [if_neg (not_lt.mpr htimely), hsaid.sequence]
    exact parseSequence_of_schema hsequence
  have hidentity : checkIdentity lib.messages received
      (some (toIdentity lib.messages received.agentId tenantId (heardTo row last))) =
        .ok (toIdentity lib.messages received.agentId tenantId (heardTo row last)) := by
    refine checkIdentity_eq (hsaid.keyId.trans hd.keyId) hdirection ?_ ?_ ?_ hw.active
    · show verifyAgentMessage lib.messages received row.publicSigningKey = true
      rw [hkey]
      exact hverified
    · exact hw.protocolVersion.trans (hsaid.protocolVersion.trans hversion).symm
    · exact (hsaid.environmentId.trans hd.environmentId).symm
  have hbound : (heardTo row last).environmentId = received.environmentId :=
    (hsaid.environmentId.trans hd.environmentId).symm
  have hfound : w.agents.find received.agentId = some (heardTo row last) := by
    rw [hid]
    exact hw.found
  have hunheard : ∀ entry ∈ w.receipts.entries, ¬ isDuplicate (claimOf received (toIdentity
      lib.messages received.agentId tenantId (heardTo row last)) d.sequence d.receivedAt) entry := by
    intro entry hentry hduplicate
    obtain ⟨⟨n, hle, hn⟩, hnew⟩ := hw.receipts entry.1 entry.2 (Table.mem_entries_iff.mp hentry)
      (hduplicate.1.trans hid)
    obtain hmessage | hsame := hduplicate.2
    · refine hnew ?_
      rw [hmessage]
      exact List.mem_cons.mpr (.inl hsaid.messageId)
    · have hequal : toString n = toString d.sequence := hn.symm.trans hsame
      have hparsed := bigInt_toString n
      rw [hequal, bigInt_toString] at hparsed
      have := Option.some.inj hparsed
      omega
  have hrun := authenticate_run hchecked hfound htenant hidentity hbound hw.active
    (bigInt_toString last) hlater hunheard
  have hstart : (agentSystem lib Presented).starts w (.authenticate received d.receivedAt) :=
    ⟨d.body, hd.presented, hread⟩
  have hcommitted := hc.transaction hstart (run_bind hrun) trivial
  refine ⟨received, _, _, hsaid, hid, hcommitted, ?_⟩
  rw [← hsaid.messageId] at hw hfresh
  show Heard ((view w (claimLog _ _)).record _) agentId row d.sequence messageIds
  rw [view_claimLog hfound]
  exact hw.accept hid rfl hlater.le hfresh

theorem handled_cons {received : AgentMessage} {receivedAt : Int} {agent : GatewayAgentIdentity}
    (h : received.agentId = agentId) (more : List (MessageRequest × MessageReply)) :
    handled agentId ((.authenticate received receivedAt, .authenticated (.ok agent)) :: more) =
      received :: handled agentId more :=
  List.filterMap_cons_some (if_pos h)

/-- Messages in the order of their sequences are handled one after the other. -/
theorem deliver_all (hcanonical : Json.Canonicalizes lib.canonicalize) (hed : lib.ed.Correct)
    (hkey : row.publicSigningKey = base64url (lib.ed.publicKey key)) (deliveries : List Delivery)
    (hdeliverable : ∀ d ∈ deliveries, Deliverable lib Presented key agentId row d)
    (hsequences : (last :: deliveries.map Delivery.sequence).IsChain (· < ·))
    (hids : (deliveries.map (·.message.messageId)).Nodup)
    (hw : Heard w agentId row last (deliveries.map (·.message.messageId)))
    (hc : Committed (agentSystem lib Presented) w₀ history ⟨w, fun _ => none⟩) :
    ∃ more w', Committed (agentSystem lib Presented) w₀ (history ++ more) ⟨w', fun _ => none⟩ ∧
      List.Forall₂ Says (handled agentId more) (deliveries.map (·.message)) := by
  induction deliveries generalizing w history last with
  | nil =>
    refine ⟨[], w, ?_, .nil⟩
    rwa [List.append_nil]
  | cons d deliveries ih =>
    rw [List.map_cons, List.isChain_cons_cons] at hsequences
    rw [List.map_cons, List.nodup_cons] at hids
    obtain ⟨received, agent, w₁, hsaid, hid, hcommitted, hheard⟩ := deliver_one hcanonical hed hkey
      (hdeliverable d List.mem_cons_self) hsequences.1 hids.1 hw hc
    obtain ⟨more, w', hall, hmore⟩ := ih (fun d' hd' => hdeliverable d' (List.mem_cons_of_mem _ hd'))
      hsequences.2 hids.2 hheard hcommitted
    refine ⟨(.authenticate received d.receivedAt, .authenticated (.ok agent)) :: more, w', ?_, ?_⟩
    · rwa [List.append_assoc] at hall
    · rw [handled_cons hid]
      exact .cons hsaid hmore

/-- **Messages are delivered**: what an agent signs with increasing sequences and presents in time,
    in any order of the members, is handled in full and in this order. -/
theorem messages_delivered (hcanonical : Json.Canonicalizes lib.canonicalize)
    (hed : lib.ed.Correct) (hkey : row.publicSigningKey = base64url (lib.ed.publicKey key))
    (deliveries : List Delivery)
    (hdeliverable : ∀ d ∈ deliveries, Deliverable lib Presented key agentId row d)
    (hsequences : (last :: deliveries.map Delivery.sequence).IsChain (· < ·))
    (hids : (deliveries.map (·.message.messageId)).Nodup)
    (hw : Heard w agentId row last (deliveries.map (·.message.messageId))) :
    ∃ history w', Committed (agentSystem lib Presented) w history ⟨w', fun _ => none⟩ ∧
      List.Forall₂ Says (handled agentId history) (deliveries.map (·.message)) :=
  deliver_all hcanonical hed hkey deliveries hdeliverable hsequences hids hw .initial

end Delivered

/-! ## A first message -/

theorem length_plainDigest : (List.replicate 32 0 : List UInt8).length = 32 := List.length_replicate

/-- One key, and signatures that are all the same. -/
def plainProtocol : ProtocolLibraries Unit where
  canonicalize := Json.canonical
  ed := {
    publicKey := fun _ => List.replicate 32 7
    sign := fun _ _ => List.replicate 64 2
    isVerifyingKey := fun bytes => bytes.length = 32
    verify := fun _ _ signature => signature = List.replicate 64 2 }
  sha256 := fun _ => ⟨List.replicate 32 0, length_plainDigest⟩

theorem plainProtocol_correct : plainProtocol.ed.Correct where
  publicKey_length _ := rfl
  isVerifyingKey _ := rfl
  sign_length _ _ := rfl
  verify_sign _ _ := rfl

theorem pollPayload_plain : (Json.object [("waitMs", .number 0)] : Json String).distinct = true ∧
    (Json.object [("waitMs", .number 0)] : Json String).safe = true := by decide

def firstPoll : AgentProtocol.AgentMessage where
  type := agentMessageType
  protocolVersion := "1.0"
  messageType := "agent.poll"
  messageId := "msg_1"
  keyId := "key_1"
  environmentId := "env_1"
  agentId := "agt_1"
  direction := "agent_to_control"
  sequence := "1"
  sentAt := "2026-01-01T00:00:00.000Z"
  payload := ⟨.object [("waitMs", .number 0)], pollPayload_plain⟩
  signature := ""

def firstBody : JsValue :=
  ⟨.object (signMessage plainProtocol firstPoll ()).members, AgentProtocol.members_distinct _⟩

def pollingRow : AgentRow where
  environmentId := "env_1"
  publicSigningKey := base64url (List.replicate 32 7)
  publicEncryptionKey := "key"
  signingKeyId := some "key_1"
  encryptionKeyId := none
  version := "1.0.0"
  protocolVersion := "1.0"
  instanceFingerprint := "host"
  status := .online
  lastSequence := "0"

def pollingStore : Store :=
  { firstAgents with agents := Table.empty.set "agt_1" (some pollingRow) }

def firstDelivery : Delivery := ⟨firstPoll, firstBody, 1767225600000⟩

theorem conforms_firstPoll : Conforms firstPoll .agentToControl :=
  ⟨rfl, rfl, by decide⟩

theorem deliverable_first :
    Deliverable plainProtocol (· = firstBody) () "agt_1" pollingRow firstDelivery where
  conforms := conforms_firstPoll
  agentId := rfl
  environmentId := rfl
  keyId := rfl
  presented := rfl
  ordered := rfl
  timely := ⟨1767225600000, by decide, by decide⟩

theorem heard_first : Heard pollingStore "agt_1" pollingRow 0 ["msg_1"] where
  found := by decide
  tenant := ⟨"ten_1", by decide⟩
  active := by decide
  protocolVersion := rfl
  receipts := by
    intro key receipt hreceipt
    cases hreceipt

theorem deliverable_all :
    ∀ d ∈ [firstDelivery], Deliverable plainProtocol (· = firstBody) () "agt_1" pollingRow d := by
  intro d hd
  rw [List.mem_singleton.mp hd]
  exact deliverable_first

theorem sequences_first : (0 :: [firstDelivery].map Delivery.sequence).IsChain (· < ·) := by
  refine List.isChain_cons_cons.mpr ⟨?_, List.isChain_singleton _⟩
  decide

theorem messages_delivered_first : ∃ history w',
    Committed (agentSystem plainProtocol (· = firstBody)) pollingStore history
      ⟨w', fun _ => none⟩ ∧ List.Forall₂ Says (handled "agt_1" history) [firstPoll] :=
  messages_delivered Json.canonicalizes_canonical plainProtocol_correct rfl [firstDelivery]
    deliverable_all sequences_first (List.nodup_singleton _) heard_first

theorem unheard_first : pollingStore.Unheard := by
  refine ⟨rfl, rfl, ?_⟩
  intro agentId row hstored
  by_cases hid : agentId = "agt_1"
  · subst hid
    cases hstored
    rfl
  · rw [pollingStore, Table.find_set_of_ne _ _ hid] at hstored
    cases hstored

/-- The only body that is presented is the one that was signed. -/
theorem unforged_first :
    Unforged plainProtocol (· = firstBody) () (· = firstPoll) := by
  rintro message signature bytes ⟨body, rfl, hread⟩ - hbytes -
  have hordered : firstBody.val.ordered =
    (Json.object (signMessage plainProtocol firstPoll ()).members).ordered := rfl
  obtain ⟨received, hreceived, -, -, hsigned, -⟩ := AgentProtocol.read_signed
    Json.canonicalizes_canonical plainProtocol_correct conforms_firstPoll firstBody.property hordered
  obtain rfl := Option.some.inj (hreceived.symm.trans hread)
  rw [← Option.some.inj (hsigned.symm.trans hbytes)]
  exact .message firstPoll rfl

theorem messages_as_emitted_first : ∃ history c,
    Committed (agentSystem plainProtocol (· = firstBody)) pollingStore history c ∧
      (handled "agt_1" history).length = 1 ∧
      ∃ sent : List AgentProtocol.AgentMessage,
        List.Forall₂ Says (handled "agt_1" history) sent ∧ ∀ message ∈ sent, message = firstPoll := by
  obtain ⟨history, w', hcommitted, hsaid⟩ := deliver_all Json.canonicalizes_canonical
    plainProtocol_correct rfl [firstDelivery] deliverable_all sequences_first
    (List.nodup_singleton _) heard_first .initial
  have hrow : pollingStore.agents.find "agt_1" = some pollingRow := by decide
  have hkey : pollingRow.publicSigningKey = base64url (plainProtocol.ed.publicKey ()) := rfl
  obtain ⟨sent, hall, hsent, -⟩ := messages_as_emitted Json.canonicalizes_canonical unforged_first
    unheard_first hcommitted hrow hkey
  exact ⟨_, _, hcommitted, hsaid.length_eq, sent, hall, hsent⟩

end ForgetOps.Api.Gateway
