import ForgetOps.Api.AgentReach

/-
  The one active transport of an agent, under all interleavings of polling routes and sockets.

  A thread checks its session in one transaction and works in the next, and between the two the
  session may be taken over. The invariant keeps the last event of an agent beside its row
  (`TransportsConsistent.named`), and for every thread the event its check has seen; no session is
  claimed twice. So a job is handed out on behalf of the named session exactly where nothing has
  taken effect on the agent since the check: `transport_exclusive_iff`.
-/

namespace ForgetOps.Api.Gateway

open Database ReadCommitted RowStore

/-! ## What is claimed -/

/-- The row of the agent is of the session. -/
def Names (row : Option TransportRow) (session : AgentSession) : Prop :=
  ∃ r, row = some r ∧ r.Of session

instance (row : Option TransportRow) (session : AgentSession) : Decidable (Names row session) :=
  match row with
  | none => isFalse nofun
  | some r => decidable_of_iff (r.Of session) ⟨fun h => ⟨r, rfl, h⟩, fun ⟨_, hr, h⟩ => by
      cases hr
      exact h⟩

/-- The job was handed out while `agent_transport_sessions` named the session. -/
def Handover.Exclusive (h : Handover) : Prop := Names h.named h.session

instance (h : Handover) : Decidable h.Exclusive := inferInstanceAs (Decidable (Names _ _))

/-- Nothing took effect on the agent from the check of the session to the commit. -/
def Handover.Undisturbed (h : Handover) : Prop := h.changes = h.seen

/-- Nothing has happened yet. -/
structure Channels.Unused (w : Channels) : Prop where
  sessions : w.sessions = .empty
  threads : w.threads = []
  events : w.events = []
  handovers : w.handovers = []

/-! ## Lists -/

/-- Where an element ends a part of a list and stands nowhere else, it ends the list just if the
    part is the list. -/
theorem getLast_iff_length {α : Type} [DecidableEq α] {l : List α} {x : α} {n : Nat}
    (hcount : l.count x ≤ 1) (hn : n ≤ l.length) (htake : (l.take n).getLast? = some x) :
    l.getLast? = some x ↔ l.length = n := by
  constructor
  · intro hlast
    by_contra hne
    have hdrop : l.drop n ≠ [] := by
      intro hnil
      rw [List.drop_eq_nil_iff] at hnil
      omega
    have hsplit := List.take_append_drop n l
    have hlast' : (l.drop n).getLast? = some x := by
      rw [← hsplit, List.getLast?_append_of_ne_nil _ hdrop] at hlast
      exact hlast
    have hmem := List.mem_of_getLast? htake
    have hmem' := List.mem_of_getLast? hlast'
    have hcounts : (l.take n ++ l.drop n).count x = (l.take n).count x + (l.drop n).count x :=
      List.count_append
    rw [hsplit] at hcounts
    have hpos := List.count_pos_iff.mpr hmem
    have hpos' := List.count_pos_iff.mpr hmem'
    omega
  · rintro rfl
    rw [List.take_length] at htake
    exact htake

/-- An element of a list with one more. -/
theorem getElem?_concat {α : Type} {l : List α} {x y : α} {i : ℕ} (h : (l ++ [x])[i]? = some y) :
    l[i]? = some y ∨ (i = l.length ∧ y = x) := by
  rw [List.getElem?_append] at h
  split_ifs at h with hi
  · exact .inl h
  · rw [List.getElem?_singleton] at h
    split_ifs at h with hzero
    · exact .inr ⟨by omega, (Option.some.inj h).symm⟩

theorem eventsOf_append (agentId : String) (events more : List TransportEvent) :
    eventsOf agentId (events ++ more) = eventsOf agentId events ++ eventsOf agentId more :=
  List.filter_append _ _

theorem count_eventsOf {session : AgentSession} (events : List TransportEvent) :
    (eventsOf session.agentId events).count (.claimed session) = events.count (.claimed session) :=
  List.count_filter (by simp [TransportEvent.agentId])

/-! ## The invariant -/

/-- A thread behind a check has seen its session as the last of the agent's. -/
def Thread.Seen (thread : Thread) (events : List TransportEvent) : Prop :=
  ∀ seen, thread.stage = .working seen →
    seen ≤ (eventsOf thread.session.agentId events).length ∧
      ((eventsOf thread.session.agentId events).take seen).getLast? = some (.claimed thread.session)

structure TransportsConsistent (w : Channels) : Prop where
  named : ∀ session, Names (w.sessions.find session.agentId) session ↔
    (eventsOf session.agentId w.events).getLast? = some (.claimed session)
  once : ∀ session, w.events.count (.claimed session) ≤ 1
  unclaimed : ∀ thread ∈ w.threads, thread.stage = .claiming → .claimed thread.session ∉ w.events
  distinct : ∀ (i j : ℕ) (thread thread' : Thread), w.threads[i]? = some thread →
    w.threads[j]? = some thread' → thread.stage = .claiming → thread'.stage = .claiming →
    thread.session = thread'.session → i = j
  seen : ∀ thread ∈ w.threads, thread.Seen w.events
  handovers : ∀ h ∈ w.handovers, h.Exclusive ↔ h.Undisturbed

/-- While a transaction is at work, events are only added. -/
structure EventsGrow (held : List (GatewayKey ⊕ ChannelKey)) (w w' : GatewayWorld) : Prop where
  rows : HeldRows held w w'
  events : w.2.events <+: w'.2.events

theorem rely_eventsGrow : Rely EventsGrow where
  refl held w := ⟨rely_heldRows.refl held w, List.prefix_rfl⟩
  trans h h' := ⟨rely_heldRows.trans h.rows h'.rows, h.events.trans h'.events⟩
  mono hsub h := ⟨rely_heldRows.mono hsub h.rows, h.events⟩
  agree h := rely_heldRows.agree h.rows

theorem Channels.Unused.consistent {w : Channels} (h : w.Unused) : TransportsConsistent w := by
  refine ⟨fun session => ?_, fun session => ?_, ?_, ?_, ?_, ?_⟩
  · rw [h.sessions, h.events]
    constructor
    · rintro ⟨r, hnone, -⟩
      cases hnone
    · intro hsome
      cases hsome
  · rw [h.events]
    exact Nat.zero_le 1
  · intro thread hmem
    rw [h.threads] at hmem
    cases hmem
  · intro i j thread thread' hthread
    rw [h.threads] at hthread
    cases hthread
  · intro thread hmem
    rw [h.threads] at hmem
    cases hmem
  · intro handover hmem
    rw [h.handovers] at hmem
    cases hmem

/-- What a check has seen is still what came first. -/
theorem Thread.Seen.later {thread : Thread} {events events' : List TransportEvent}
    (h : thread.Seen events) (hgrow : events <+: events') : thread.Seen events' := by
  intro seen hstage
  obtain ⟨hle, htake⟩ := h seen hstage
  obtain ⟨more, rfl⟩ := hgrow
  rw [eventsOf_append, List.length_append, List.take_append_of_le_length hle]
  exact ⟨by omega, htake⟩

/-! ## What a call does -/

/-- What a call on behalf of a session does to the sessions, beside the event it leaves. -/
inductive SessionStep (session : AgentSession) (w w' : Channels) : Option TransportEvent → Prop
  | quiet (h : w'.sessions = w.sessions) : SessionStep session w w' none
  | claimed {r : TransportRow} (hr : r.Of session)
      (h : w'.sessions = w.sessions.set session.agentId (some r)) :
      SessionStep session w w' (some (.claimed session))
  | released (h : w'.sessions = w.sessions.set session.agentId none) :
      SessionStep session w w' (some (.released session))

section Calls

variable {w : GatewayWorld} {p p' : Point GatewayWorld GatewayWorldRow}

theorem rely_transports : Rely (Within (fun w => TransportsConsistent w.2) EventsGrow) :=
  rely_eventsGrow.within _

theorem view_append_of_first {log more : Log GatewayWorldRow}
    (h : ∀ k ∈ keys more, k.isLeft = true) : (view w (log ++ more)).2 = (view w log).2 := by
  rw [view_append]
  exact view_of_first h

theorem upsertSession_some {session : AgentSession} {now : Int} {row v : Option TransportRow}
    {b : Unit} (h : upsertSession session now row = some (b, v)) :
    ∃ r, v = some r ∧ r.Of session := by
  cases row with
  | none =>
    cases h
    exact ⟨_, rfl, rfl, rfl, rfl, rfl⟩
  | some row =>
    unfold upsertSession at h
    dsimp only at h
    split_ifs at h
    cases h
    exact ⟨_, rfl, rfl, rfl, rfl, rfl⟩

theorem claimTransport_step {session : AgentSession} {now : Int}
    {previous : Option (Option String)} (hlog : p.log = [])
    (h : Leads (Within (fun w => TransportsConsistent w.2) EventsGrow) w
      (claimTransport session now) p previous p') :
    SessionStep session w.2 (view w p'.log).2 (previous.map fun _ => .claimed session) := by
  obtain ⟨agent, p₁, hagent, h⟩ := leads_bind rely_transports h
  obtain ⟨more, hmore, hleft⟩ := leads_first hagent
  have hfirst : (view w p₁.log).2 = w.2 := by
    rw [hmore, view_append_of_first hleft, hlog, view_nil]
  cases agent with
  | none =>
    obtain ⟨rfl, hlog₁⟩ := leads_pure rely_transports h
    refine .quiet ?_
    rw [hlog₁, hfirst]
  | some agent =>
    dsimp only at h
    split at h
    · obtain ⟨rfl, hlog₁⟩ := leads_pure rely_transports h
      refine .quiet ?_
      rw [hlog₁, hfirst]
    · obtain ⟨current, p₂, hcurrent, h⟩ := leads_bind rely_transports h
      obtain ⟨upserted, p₃, hupserted, h⟩ := leads_bind rely_transports h
      obtain ⟨_, p₄, hfail, h⟩ := leads_bind rely_transports h
      obtain ⟨rfl, hlog₄⟩ := leads_pure rely_transports h
      obtain ⟨hsome, hlog₃⟩ := leads_failIf rely_transports hfail
      have hsecond : (view w p₂.log).2 = w.2 := by
        obtain ⟨r, v, -, htake, hlog₂⟩ | ⟨-, hlog₂⟩ := leads_second_update rely_transports hcurrent
        · rw [hlog₂, view_concat_second, lockRow_locks _ _ _ htake, RowStore.write_row, hfirst]
        · rw [hlog₂, hfirst]
      obtain ⟨b, v, -, htake, hlog₂⟩ | ⟨hnone, -⟩ := leads_second_update rely_transports hupserted
      · obtain ⟨r, rfl, hr⟩ := upsertSession_some htake
        refine .claimed hr ?_
        rw [hlog₄, hlog₃, hlog₂, view_concat_second, hsecond]
        rfl
      · exact absurd hnone hsome

theorem releaseTransport_step {session : AgentSession} {deleted : Bool} (hlog : p.log = [])
    (h : Leads (Within (fun w => TransportsConsistent w.2) EventsGrow) w
      (releaseTransport session) p deleted p') :
    SessionStep session w.2 (view w p'.log).2 (if deleted then some (.released session) else none) := by
  obtain ⟨answer, p₁, hdelete, h⟩ := leads_bind rely_transports h
  obtain ⟨rfl, hlog₁⟩ := leads_pure rely_transports h
  rw [hlog₁]
  obtain ⟨b, v, rfl, htake, hlog₁⟩ | ⟨rfl, hlog₁⟩ := leads_second_update rely_transports hdelete
  · have hv : v = none := by
      unfold deleteRow at htake
      split at htake
      · split_ifs at htake
        cases htake
        rfl
      · cases htake
    refine .released ?_
    rw [hlog₁, view_concat_second, hv, hlog]
    rfl
  · refine .quiet ?_
    rw [hlog₁, hlog]
    rfl

/-- A check that finds its session active has seen its claim as the last event of the agent. -/
theorem isTransportActive_step {session : AgentSession} {active : Bool × Nat} (hlog : p.log = [])
    (hp : TransportsConsistent p.time.2)
    (h : Leads (Within (fun w => TransportsConsistent w.2) EventsGrow) w
      (isTransportActive session) p active p') :
    p'.log = [] ∧ (active.1 = true →
      active.2 ≤ (eventsOf session.agentId w.2.events).length ∧
        ((eventsOf session.agentId w.2.events).take active.2).getLast? = some (.claimed session)) := by
  obtain ⟨hlog', u, rfl, hu, hw⟩ := leads_read rely_transports h
  refine ⟨hlog'.trans hlog, fun hactive => ?_⟩
  rw [hlog, view_nil] at hactive ⊢
  have hnames : Names (u.2.sessions.find session.agentId) session := by
    obtain ⟨r, hr, hof⟩ := Option.any_eq_true _ _ |>.mp hactive
    exact ⟨r, hr, of_decide_eq_true hof⟩
  have hlast := ((hu.2 hp).named session).mp hnames
  obtain ⟨more, hmore⟩ := hw.1.events
  rw [← hmore, eventsOf_append]
  dsimp only
  rw [List.take_left, List.length_append]
  exact ⟨by omega, hlast⟩

/-- A transaction of the gateway leaves the sessions alone. -/
theorem answered_first {α : Type} {s : GatewayTransaction α} {f : α → GatewayReply}
    {reply : GatewayReply} (hlog : p.log = [])
    (h : Leads (Within (fun w => TransportsConsistent w.2) EventsGrow) w
      (s.first >>= fun a => pure (f a)) p reply p') :
    (view w p'.log).2 = w.2 ∧ ∃ a, f a = reply := by
  obtain ⟨a, p₁, hs, h⟩ := leads_bind rely_transports h
  obtain ⟨hreply, hlog₁⟩ := leads_pure rely_transports h
  obtain ⟨more, hmore, hleft⟩ := leads_first hs
  rw [hlog₁, hmore, view_append_of_first hleft, hlog]
  exact ⟨rfl, a, hreply⟩

theorem work_step {thread : Thread} {now : Int} {reply : GatewayReply} (hlog : p.log = [])
    (h : Leads (Within (fun w => TransportsConsistent w.2) EventsGrow) w (thread.work now) p reply
      p') :
    (view w p'.log).2 = w.2 ∧ thread.event reply = none ∧
      (∀ seen, (thread.after reply).stage ≠ .working seen) ∧
      (thread.after reply).stage ≠ .claiming := by
  have hpolled : ∀ offer, thread.event (.polled offer) = none ∧
      (∀ seen, (thread.after (.polled offer)).stage ≠ .working seen) ∧
      (thread.after (.polled offer)).stage ≠ .claiming := by
    intro offer
    refine ⟨rfl, ?_⟩
    cases offer with
    | some offer => exact ⟨nofun, nofun⟩
    | none =>
      show (∀ seen, (if 0 < thread.rounds then _ else _ : Stage) ≠ .working seen) ∧
        (if 0 < thread.rounds then _ else _ : Stage) ≠ .claiming
      split
      · exact ⟨nofun, nofun⟩
      · exact ⟨nofun, nofun⟩
  unfold Thread.work at h
  cases hroute : thread.route with
  | lease jobId =>
    rw [hroute] at h
    obtain ⟨hview, lease, rfl⟩ := answered_first hlog h
    exact ⟨hview, rfl, nofun, nofun⟩
  | heartbeat jobId =>
    rw [hroute] at h
    obtain ⟨hview, job, rfl⟩ := answered_first hlog h
    exact ⟨hview, rfl, nofun, nofun⟩
  | poll waitMs =>
    rw [hroute] at h
    obtain ⟨hview, offer, rfl⟩ := answered_first (f := fun offer : Option (String × AgentJobRow) × Nat => .polled offer.1)
      hlog h
    exact ⟨hview, hpolled _⟩
  | hello | scan | close =>
    rw [hroute] at h
    obtain ⟨hview, offer, rfl⟩ := answered_first (f := fun offer : Option (String × AgentJobRow) × Nat => .polled offer.1)
      hlog h
    exact ⟨hview, hpolled _⟩

/-- A call of a thread, with what it leaves of the sessions and of the thread. -/
theorem call_step {thread : Thread} {now : Int} {reply : GatewayReply} (hlog : p.log = [])
    (hp : TransportsConsistent p.time.2)
    (h : Leads (Within (fun w => TransportsConsistent w.2) EventsGrow) w (thread.call now) p reply
      p') :
    SessionStep thread.session w.2 (view w p'.log).2 (thread.event reply) ∧
      (thread.after reply).Seen w.2.events ∧ (thread.after reply).stage ≠ .claiming ∧
      (thread.event reply = some (.claimed thread.session) → thread.stage = .claiming) := by
  unfold Thread.call at h
  split at h
  · next hstage =>
    obtain ⟨previous, p₁, hclaim, h⟩ := leads_bind rely_transports h
    obtain ⟨rfl, hlog₁⟩ := leads_pure rely_transports h
    have hstep := claimTransport_step hlog hclaim
    rw [hlog₁]
    refine ⟨?_, ?_, nofun, fun _ => hstage⟩
    · cases previous with
      | none => exact hstep
      | some _ => exact hstep
    · intro seen hworking
      cases hworking
  · next checks hstage =>
    obtain ⟨active, p₁, hcheck, h⟩ := leads_bind rely_transports h
    obtain ⟨rfl, hlog₁⟩ := leads_pure rely_transports h
    obtain ⟨hempty, hseen⟩ := isTransportActive_step hlog hp hcheck
    rw [hlog₁, hempty]
    have hnext : ∀ stage, (thread.after (.checked active.1 active.2)).stage = stage →
        (stage = .working active.2 ∧ active.1 = true) ∨ stage = .finished ∨
          ∃ checks, stage = .checking checks := by
      rintro stage rfl
      unfold Thread.after Thread.nextStage
      rw [hstage]
      cases active.1 with
      | false => exact .inr (.inl rfl)
      | true =>
        cases checks with
        | zero => exact .inl ⟨rfl, rfl⟩
        | succ checks => exact .inr (.inr ⟨checks, rfl⟩)
    refine ⟨.quiet rfl, ?_, ?_, nofun⟩
    · intro seen hworking
      obtain ⟨hseenEq, hactive⟩ | hfinished | ⟨checks, hchecking⟩ := hnext _ hworking
      · cases hseenEq
        exact hseen hactive
      · cases hfinished
      · cases hchecking
    · intro hclaiming
      obtain ⟨hseenEq, -⟩ | hfinished | ⟨checks, hchecking⟩ := hnext _ hclaiming
      · cases hseenEq
      · cases hfinished
      · cases hchecking
  · obtain ⟨hview, hevent, hworking, hclaiming⟩ := work_step hlog h
    rw [hevent, hview]
    exact ⟨.quiet rfl, fun seen hstage => absurd hstage (hworking seen), hclaiming, nofun⟩
  · obtain ⟨deleted, p₁, hrelease, h⟩ := leads_bind rely_transports h
    obtain ⟨rfl, hlog₁⟩ := leads_pure rely_transports h
    have hstep := releaseTransport_step hlog hrelease
    rw [hlog₁]
    refine ⟨?_, ?_, nofun, ?_⟩
    · cases deleted with
      | false => exact hstep
      | true => exact hstep
    · intro seen hworking
      cases hworking
    · intro hevent
      cases deleted <;> cases hevent
  · exact (leads_fail h).elim

end Calls

/-! ## What a commit does -/

section Commits

variable {w w' : Channels} {session : AgentSession} {event : Option TransportEvent}

theorem Names.session_eq {r : TransportRow} {session session' : AgentSession}
    (hr : r.Of session) (hagent : session'.agentId = session.agentId) :
    Names (some r) session' ↔ session' = session := by
  constructor
  · rintro ⟨r', heq, hof⟩
    cases heq
    obtain ⟨htenant, henvironment, htransport, hid⟩ := hr
    obtain ⟨htenant', henvironment', htransport', hid'⟩ := hof
    cases session
    cases session'
    cases hagent
    cases htenant
    cases henvironment
    cases htransport
    cases hid
    cases htenant'
    cases henvironment'
    cases htransport'
    cases hid'
    rfl
  · rintro rfl
    exact ⟨r, rfl, hr⟩

theorem eventsOf_concat_self (agentId : String) (events : List TransportEvent)
    {event : TransportEvent} (h : event.agentId = agentId) :
    (eventsOf agentId (events ++ [event])).getLast? = some event := by
  rw [eventsOf_append, eventsOf, eventsOf, List.filter_cons_of_pos (by simp [h]), List.filter_nil,
    List.getLast?_concat]

theorem eventsOf_concat_other (agentId : String) (events : List TransportEvent)
    {event : TransportEvent} (h : event.agentId ≠ agentId) :
    eventsOf agentId (events ++ [event]) = eventsOf agentId events := by
  rw [eventsOf_append, eventsOf, eventsOf, List.filter_cons_of_neg (by simp [h]), List.filter_nil,
    List.append_nil]

/-- The row of an agent still goes with its last event. -/
theorem SessionStep.named (hstep : SessionStep session w w' event) (hw : TransportsConsistent w)
    (session' : AgentSession) :
    Names (w'.sessions.find session'.agentId) session' ↔
      (eventsOf session'.agentId (w.events ++ event.toList)).getLast? =
        some (.claimed session') := by
  cases hstep with
  | quiet h =>
    rw [h, Option.toList_none, List.append_nil]
    exact hw.named session'
  | @claimed r hr h =>
    rw [h, Option.toList_some]
    by_cases hagent : session'.agentId = session.agentId
    · rw [hagent, Table.find_set_self, Names.session_eq hr hagent,
        eventsOf_concat_self _ _ (by rfl), Option.some.injEq, TransportEvent.claimed.injEq, eq_comm]
    · rw [Table.find_set_of_ne _ _ hagent, eventsOf_concat_other _ _ (Ne.symm hagent)]
      exact hw.named session'
  | released h =>
    rw [h, Option.toList_some]
    by_cases hagent : session'.agentId = session.agentId
    · rw [hagent, Table.find_set_self, eventsOf_concat_self _ _ (by rfl)]
      constructor
      · rintro ⟨r, hnone, -⟩
        cases hnone
      · intro heq
        cases heq
    · rw [Table.find_set_of_ne _ _ hagent, eventsOf_concat_other _ _ (Ne.symm hagent)]
      exact hw.named session'

/-- An event is about the session of its call. -/
theorem SessionStep.of_claimed {session' : AgentSession}
    (hstep : SessionStep session w w' (some (.claimed session'))) : session' = session := by
  cases hstep
  rfl

/-- Handing out a job leaves the sessions alone. -/
theorem event_of_handsOut {thread : Thread} {reply : GatewayReply} (h : reply.handsOut = true) :
    thread.event reply = none := by
  cases reply with
  | polled | leased | renewed => rfl
  | claimed | checked | released | done => cases h

/-- A job is handed out on behalf of the named session just if nothing took effect since the
    check. -/
theorem handover_exclusive_iff {thread : Thread} {reply : GatewayReply} {h : Handover}
    (hw : TransportsConsistent w) (hmem : thread ∈ w.threads)
    (hstep : SessionStep thread.session w w' (thread.event reply))
    (hevents : w'.events = w.events) (hh : thread.handover reply w' = some h) :
    h.Exclusive ↔ h.Undisturbed := by
  unfold Thread.handover at hh
  split at hh
  · next seen hstage =>
    split_ifs at hh with hout
    cases hh
    rw [event_of_handsOut hout] at hstep
    cases hstep with
    | quiet hsessions =>
      obtain ⟨hle, htake⟩ := hw.seen thread hmem seen hstage
      have hcount := hw.once thread.session
      rw [← count_eventsOf] at hcount
      unfold Handover.Exclusive Handover.Undisturbed
      rw [hsessions, hevents, hw.named]
      exact getLast_iff_length hcount hle htake
  · cases hh

/-- A commit of a thread's call keeps the invariant. -/
theorem TransportsConsistent.commit {thread : Thread} {reply : GatewayReply} {index : ℕ}
    (hw : TransportsConsistent w) (hcurrent : w.threads[index]? = some thread)
    (hstep : SessionStep thread.session w w' (thread.event reply))
    (hclaim : thread.event reply = some (.claimed thread.session) → thread.stage = .claiming)
    (hseen : (thread.after reply).Seen w.events) (hafter : (thread.after reply).stage ≠ .claiming)
    (hevents : w'.events = w.events) (hthreads : w'.threads = w.threads)
    (hhandovers : w'.handovers = w.handovers) :
    TransportsConsistent { w' with
      threads := w'.threads.set index (thread.after reply)
      events := w'.events ++ (thread.event reply).toList
      handovers := w'.handovers ++ (thread.handover reply w').toList } := by
  have hmem : thread ∈ w.threads := List.mem_of_getElem? hcurrent
  have hother : ∀ (j : ℕ) (thread' : Thread),
      (w.threads.set index (thread.after reply))[j]? = some thread' → thread'.stage = .claiming →
        w.threads[j]? = some thread' ∧ j ≠ index := by
    intro j thread' hj hclaiming
    rw [List.getElem?_set] at hj
    split_ifs at hj with heq
    · cases hj
      exact absurd hclaiming hafter
    · exact ⟨hj, Ne.symm heq⟩
  rw [hevents, hthreads, hhandovers]
  constructor
  · exact hstep.named hw
  · intro session
    rw [List.count_append]
    cases hevent : thread.event reply with
    | none => exact hw.once session
    | some event =>
      rw [Option.toList_some, List.count_singleton]
      split_ifs with heq
      · obtain rfl := eq_of_beq heq
        obtain rfl := (hevent ▸ hstep).of_claimed
        have hnew := hw.unclaimed thread hmem (hclaim hevent)
        rw [List.count_eq_zero_of_not_mem hnew]
      · exact hw.once session
  · intro thread' hmem' hclaiming hclaimed
    obtain ⟨j, hj⟩ := List.mem_iff_getElem?.mp hmem'
    obtain ⟨hj, hne⟩ := hother j thread' hj hclaiming
    rcases List.mem_append.mp hclaimed with hold | hnew
    · exact hw.unclaimed thread' (List.mem_of_getElem? hj) hclaiming hold
    · have hevent := Option.mem_toList.mp hnew
      have hsession := (hevent ▸ hstep).of_claimed
      rw [hsession] at hevent
      exact hne (hw.distinct j index thread' thread hj hcurrent hclaiming (hclaim hevent) hsession)
  · intro i j thread₁ thread₂ hi hj hclaiming₁ hclaiming₂ hsession
    exact hw.distinct i j thread₁ thread₂ (hother i thread₁ hi hclaiming₁).1
      (hother j thread₂ hj hclaiming₂).1 hclaiming₁ hclaiming₂ hsession
  · intro thread' hmem'
    rcases List.mem_or_eq_of_mem_set hmem' with hmem' | rfl
    · exact (hw.seen thread' hmem').later (List.prefix_append _ _)
    · exact hseen.later (List.prefix_append _ _)
  · intro h hmem'
    rcases List.mem_append.mp hmem' with hmem' | hmem'
    · exact hw.handovers h hmem'
    · exact handover_exclusive_iff hw hmem hstep hevents (Option.mem_toList.mp hmem')

end Commits

/-! ## Transactions that are not about sessions -/

/-- Not a row of `agent_transport_sessions`. -/
def Apart : GatewayKey ⊕ ChannelKey → Prop
  | .inr (.session _) => False
  | _ => True

section ApartScripts

variable {α : Type}

theorem apart_first (s : GatewayTransaction α) :
    (s.first (τ := Channels) (π := ChannelRow)).Touches Apart :=
  Script.writes_first ((Script.touches_all s).mono fun _ _ _ _ => trivial)

theorem apart_second {m : ChannelKey} (hm : Apart (.inr m))
    (q : ChannelRow m → Option (α × ChannelRow m)) :
    (Script.second (σ := Store) (ρ := GatewayRow)
      (Script.update m q : Script Channels ChannelRow (Option α))).Touches Apart :=
  Script.writes_second ((Script.writes_update _ _).mpr fun _ _ _ _ => hm)

theorem apart_consumeAndPair (input : PairAgentInput) :
    (consumeAndPair input).Touches Apart := by
  have htoken : ∀ bootstrap, (lockToken input bootstrap).Touches Apart := by
    intro bootstrap
    refine (apart_second (m := .token bootstrap.1) trivial _).bind fun token => ?_
    cases token with
    | none => trivial
    | some token =>
      exact (Script.writes_failIf _ _).bind fun _ => (Script.writes_failIf _ _).bind fun _ =>
        Script.writes_pure _
  have henvironment : ∀ token, (lockEnvironment input token).Touches Apart := by
    intro token
    refine (apart_first _).bind fun environment => ?_
    cases environment with
    | none => trivial
    | some environment => exact Script.writes_failIf _ _
  have hreplace : ∀ token active, (replaceAgent input token active).Touches Apart := by
    intro token active
    cases active with
    | none => trivial
    | some active =>
      refine (Script.writes_failIf _ _).bind fun _ => (Script.writes_failIf _ _).bind fun _ =>
        (Script.writes_failIf _ _).bind fun _ => Script.Writes.bind ?_ fun _ =>
          (apart_first _).bind fun _ => Script.writes_pure _
      unfold completeForced
      split
      · exact (apart_first _).bind fun _ => Script.writes_pure _
      · trivial
  refine (Script.writes_second (Script.writes_read _)).bind fun bootstrap => ?_
  cases bootstrap with
  | none => trivial
  | some bootstrap =>
    exact (htoken bootstrap).bind fun token => (henvironment token).bind fun _ =>
      (apart_first _).bind fun active => (hreplace token _).bind fun _ =>
        (apart_first _).bind fun _ => (Script.writes_failIf _ _).bind fun _ =>
          (apart_second (m := .token bootstrap.1) trivial _).bind fun _ => (Script.writes_failIf _ _).bind fun _ =>
            Script.writes_pure _

/-- Only the calls of threads are about sessions. -/
theorem apart_script (libraries : MessageLibraries) {request : GatewayRequest}
    (h : ∀ index thread now, request ≠ .call index thread now) :
    (request.script libraries).Touches Apart := by
  cases request with
  | call index thread now => exact absurd rfl (h index thread now)
  | authenticate message receivedAt => exact (apart_first _).bind fun _ => Script.writes_pure _
  | pair input => exact (apart_consumeAndPair input).bind fun _ => Script.writes_pure _
  | revoke tenantId agentId => exact (apart_first _).bind fun _ => Script.writes_pure _
  | enqueue input => exact (apart_first _).bind fun _ => Script.writes_pure _
  | control tenantId agentId =>
    refine Script.Writes.bind ?_ fun _ => Script.writes_pure _
    exact (apart_first _).bind fun _ => (apart_first _).bind fun _ =>
      (Script.writes_failIf _ _).bind fun _ =>
        (apart_second (m := .controlSequence agentId) trivial _).bind fun _ => Script.writes_pure _

theorem view_sessions {w : GatewayWorld} {log : Log GatewayWorldRow}
    (h : ∀ k ∈ keys log, Apart k) : (view w log).2.sessions = w.2.sessions := by
  refine view_frame (K := Apart) (fun w : GatewayWorld => w.2.sessions) (fun w k v hk => ?_) h
  rcases k with k | k
  · rfl
  · cases k with
    | session id => exact hk.elim
    | controlSequence | token => rfl

/-- No statement writes what the process keeps. -/
theorem view_memory (w : GatewayWorld) (log : Log GatewayWorldRow) :
    (view w log).2.threads = w.2.threads ∧ (view w log).2.events = w.2.events ∧
      (view w log).2.handovers = w.2.handovers := by
  let memory : GatewayWorld → List Thread × List TransportEvent × List Handover :=
    fun w => (w.2.threads, w.2.events, w.2.handovers)
  have hframe : memory (view w log) = memory w := by
    refine view_frame (K := fun _ => True) memory (fun w k v _ => ?_) fun _ _ => trivial
    rcases k with k | k <;> cases k <;> rfl
  simpa [memory] using hframe

end ApartScripts

/-! ## Runs -/

/-- The invariant is about the sessions and what the process keeps. -/
theorem TransportsConsistent.congr {w w' : Channels} (h : TransportsConsistent w)
    (hsessions : w'.sessions = w.sessions) (hthreads : w'.threads = w.threads)
    (hevents : w'.events = w.events) (hhandovers : w'.handovers = w.handovers) :
    TransportsConsistent w' := by
  constructor
  · rw [hsessions, hevents]
    exact h.named
  · rw [hevents]
    exact h.once
  · rw [hthreads, hevents]
    exact h.unclaimed
  · rw [hthreads]
    exact h.distinct
  · rw [hthreads, hevents]
    exact h.seen
  · rw [hhandovers]
    exact h.handovers

/-- Another thread is started. -/
theorem TransportsConsistent.opens {w w' : GatewayWorld} (h : TransportsConsistent w.2)
    (hopens : Opens w w') : TransportsConsistent w'.2 := by
  obtain ⟨route, session, -, hfresh, rfl⟩ := hopens
  have hstage : ∀ seen, (Thread.start route session).stage ≠ .working seen := by
    intro seen
    cases route <;> exact nofun
  constructor
  · exact h.named
  · exact h.once
  · intro thread hmem hclaiming
    rcases List.mem_append.mp hmem with hmem | hmem
    · exact h.unclaimed thread hmem hclaiming
    · obtain rfl := List.mem_singleton.mp hmem
      exact (hfresh hclaiming).2
  · intro i j thread thread' hi hj hclaiming hclaiming' hsession
    rcases getElem?_concat hi with hi | ⟨rfl, rfl⟩
    · rcases getElem?_concat hj with hj | ⟨rfl, rfl⟩
      · exact h.distinct i j thread thread' hi hj hclaiming hclaiming' hsession
      · exact absurd hsession ((hfresh hclaiming').1 thread (List.mem_of_getElem? hi))
    · rcases getElem?_concat hj with hj | ⟨rfl, -⟩
      · exact absurd hsession.symm ((hfresh hclaiming).1 thread' (List.mem_of_getElem? hj))
      · rfl
  · intro thread hmem
    rcases List.mem_append.mp hmem with hmem | hmem
    · exact h.seen thread hmem
    · obtain rfl := List.mem_singleton.mp hmem
      exact fun seen hworking => absurd hworking (hstage seen)
  · exact h.handovers

theorem transports_guarantee (libraries : MessageLibraries) :
    Guarantee (gatewaySystem libraries) (fun w => TransportsConsistent w.2) fun _ => EventsGrow where
  rely _ := rely_eventsGrow
  environment := by
    intro live w w' hw hopens
    refine ⟨hw.opens hopens, fun _ held _ => ⟨fun k _ => (row_opens hopens k).symm, ?_⟩⟩
    obtain ⟨route, session, -, -, rfl⟩ := hopens
    exact List.prefix_rfl
  commit := by
    intro w u request reply log hw hu _ hcurrent completes
    obtain ⟨hthreads, hevents, hhandovers⟩ := view_memory w log
    have hrows : ∀ held : List (GatewayKey ⊕ ChannelKey), (∀ k ∈ held, k ∉ keys log) →
        HeldRows held w (request.settle reply (view w log)) :=
      fun held hheld k hk => ((row_settle request reply _ k).trans
        (row_view_of_notMem (hheld k hk))).symm
    by_cases hcall : ∃ index thread now, request = .call index thread now
    · obtain ⟨index, thread, now, rfl⟩ := hcall
      obtain ⟨hstep, hseen, hafter, hclaim⟩ :=
        call_step (p := ⟨u, []⟩) rfl hu (completes.leads rely_transports)
      refine ⟨?_, fun _ held hheld => ⟨hrows held hheld, ?_⟩⟩
      · exact hw.commit hcurrent hstep hclaim hseen hafter hevents hthreads hhandovers
      · show w.2.events <+: (view w log).2.events ++ (thread.event reply).toList
        rw [hevents]
        exact List.prefix_append _ _
    · push Not at hcall
      have hsessions : (view w log).2.sessions = w.2.sessions := by
        obtain ⟨more, hlog, hmore⟩ := completes.log_eq (apart_script libraries hcall)
        obtain rfl : log = more := hlog
        exact view_sessions hmore
      have hsettle : request.settle reply (view w log) = view w log := by
        cases request with
        | call index thread now => exact absurd rfl (hcall index thread now)
        | authenticate | pair | revoke | enqueue | control => rfl
      refine ⟨?_, fun _ held hheld => ⟨hrows held hheld, ?_⟩⟩
      · show TransportsConsistent (request.settle reply (view w log)).2
        rw [hsettle]
        exact hw.congr hsessions hthreads hevents hhandovers
      · show w.2.events <+: (request.settle reply (view w log)).2.events
        rw [hsettle, hevents]

/-- A poll, lease or heartbeat that hands out or extends a job on behalf of a session is committed
    while `agent_transport_sessions` names the session exactly where no claim and no release has
    taken effect on the agent since the check of the session. -/
theorem transport_exclusive_iff (libraries : MessageLibraries) (w : GatewayWorld)
    (unused : w.2.Unused) (c : Conf GatewayWorld GatewayWorldRow GatewayRequest GatewayReply)
    (hc : Reachable (gatewaySystem libraries) w c) :
    ∀ h ∈ c.world.2.handovers, h.Exclusive ↔ h.Undisturbed :=
  (hc.invariant (transports_guarantee libraries) unused.consistent).handovers

/-! ## A session that is taken over -/

def pollingSession (messageId : String) : AgentSession where
  tenantId := "ten_1"
  agentId := "agt_1"
  environmentId := "env_1"
  transport := .polling
  sessionId := messageId

/-- The thread of a lease, and that of a poll. -/
def leaseThread (stage : Stage) : Thread := ⟨pollingSession "msg_1", .lease "job_1", 0, stage⟩

def pollThread (stage : Stage) : Thread := ⟨pollingSession "msg_2", .poll 0, 0, stage⟩

/-- The store with these sessions, threads and events. -/
def busy (sessions : Table String TransportRow) (threads : List Thread)
    (events : List TransportEvent) : GatewayWorld :=
  (online.1, { online.2 with sessions, threads, events })

def leaseSession : Table String TransportRow :=
  Table.empty.set "agt_1" (some (newSession (pollingSession "msg_1") 1000))

def pollSession : Table String TransportRow :=
  Table.empty.set "agt_1" (some (newSession (pollingSession "msg_2") 1000))

/-- The lease has claimed its session and seen it active. -/
def leaseChecked : GatewayWorld :=
  busy leaseSession [leaseThread (.working 1)] [.claimed (pollingSession "msg_1")]

theorem reachable_leaseChecked (libraries : MessageLibraries) :
    Reachable (gatewaySystem libraries) online ⟨leaseChecked, fun _ => none⟩ := by
  have opened : Reachable (gatewaySystem libraries) online
      ⟨busy .empty [leaseThread .claiming] [], fun _ => none⟩ :=
    .single (steps_idle ⟨.lease "job_1", pollingSession "msg_1", rfl, fun _ => ⟨nofun, nofun⟩, rfl⟩)
  have claim_starts : (gatewaySystem libraries).starts (busy .empty [leaseThread .claiming] [])
    (.call 0 (leaseThread .claiming) 1000) := rfl
  have claimed : Reachable (gatewaySystem libraries) online ⟨busy leaseSession
      [leaseThread (.checking 0)] [.claimed (pollingSession "msg_1")], fun _ => none⟩ :=
    opened.trans (steps_transaction (allowed_nil _) claim_starts rfl rfl)
  have check_starts : (gatewaySystem libraries).starts (busy leaseSession
    [leaseThread (.checking 0)] [.claimed (pollingSession "msg_1")])
    (.call 0 (leaseThread (.checking 0)) 1000) := rfl
  exact claimed.trans (steps_transaction (allowed_nil _) check_starts rfl rfl)

/-- The jobs once the lease was granted. -/
def granted (w : GatewayWorld) (handover : Handover) (threads : List Thread) : GatewayWorld :=
  ({ w.1 with jobs := firstLeased.jobs }, { w.2 with threads, handovers := [handover] })

def exclusiveHandover : Handover :=
  ⟨pollingSession "msg_1", leaseSession.find "agt_1", 1, 1⟩

/-- A lease that nothing comes between. -/
theorem transport_exclusive_of_lease :
    exclusiveHandover.Exclusive ↔ exclusiveHandover.Undisturbed := by
  have lease_starts : (gatewaySystem plainLibraries).starts leaseChecked
    (.call 0 (leaseThread (.working 1)) 1000) := rfl
  have leased : Reachable (gatewaySystem plainLibraries) online
      ⟨granted leaseChecked exclusiveHandover [leaseThread .finished], fun _ => none⟩ :=
    (reachable_leaseChecked _).trans (steps_transaction (allowed_nil _) lease_starts rfl rfl)
  exact transport_exclusive_iff plainLibraries online ⟨rfl, rfl, rfl, rfl⟩ _ leased _
    List.mem_cons_self

/-- The poll has taken the session over between the check of the lease and the lease. -/
def leaseTakenOver : GatewayWorld :=
  busy pollSession [leaseThread (.working 1), pollThread (.checking 0)]
    [.claimed (pollingSession "msg_1"), .claimed (pollingSession "msg_2")]

def foreignHandover : Handover :=
  ⟨pollingSession "msg_1", pollSession.find "agt_1", 1, 2⟩

/-- A lease is granted on behalf of a session after a later claim. -/
theorem lease_after_takeover :
    Reachable (gatewaySystem plainLibraries) online
        ⟨granted leaseTakenOver foreignHandover [leaseThread .finished, pollThread (.checking 0)],
          fun _ => none⟩ ∧
      ¬ foreignHandover.Exclusive := by
  have opened : Reachable (gatewaySystem plainLibraries) online
      ⟨busy leaseSession [leaseThread (.working 1), pollThread .claiming]
        [.claimed (pollingSession "msg_1")], fun _ => none⟩ :=
    (reachable_leaseChecked _).tail
      (steps_idle ⟨.poll 0, pollingSession "msg_2", rfl, fun _ => ⟨by decide, by decide⟩, rfl⟩)
  have claim_starts : (gatewaySystem plainLibraries).starts (busy leaseSession
    [leaseThread (.working 1), pollThread .claiming] [.claimed (pollingSession "msg_1")])
    (.call 1 (pollThread .claiming) 1000) := rfl
  have taken : Reachable (gatewaySystem plainLibraries) online ⟨leaseTakenOver, fun _ => none⟩ :=
    opened.trans (steps_transaction (allowed_nil _) claim_starts rfl rfl)
  have lease_starts : (gatewaySystem plainLibraries).starts leaseTakenOver
    (.call 0 (leaseThread (.working 1)) 1000) := rfl
  exact ⟨taken.trans (steps_transaction (allowed_nil _) lease_starts rfl rfl), by decide⟩

end ForgetOps.Api.Gateway
