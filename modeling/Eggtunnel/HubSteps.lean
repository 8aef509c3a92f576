/-
Eggtunnel/HubSteps.lean

What every step of the server leaves alone: the policies, the identity of each
context, and the numbers already given out.
-/
import Eggtunnel.HubMoves

namespace Eggtunnel

/-! ### One control loop -/

namespace Server

variable {s t : Server} {writes : List Write}

/-- What no branch of the control loop changes. -/
structure Fixed (s t : Server) : Prop where
  sessionId : t.sessionId = s.sessionId
  policy : t.policy = s.policy
  bindPolicy : t.bindPolicy = s.bindPolicy
  negotiated : t.negotiated = s.negotiated

theorem Fixed.refl (s : Server) : Fixed s s := ⟨rfl, rfl, rfl, rfl⟩

theorem Fixed.trans {u : Server} (hst : Fixed s t) (htu : Fixed t u) : Fixed s u :=
  ⟨htu.sessionId.trans hst.sessionId, htu.policy.trans hst.policy,
    htu.bindPolicy.trans hst.bindPolicy, htu.negotiated.trans hst.negotiated⟩

theorem fixed_finish (s : Server) (result : Except TunnelError Unit) : Fixed s (s.finish result) :=
  ⟨rfl, rfl, rfl, rfl⟩

theorem fixed_registerService (s : Server) (register : RegisterService) (os : BindOutcome) :
    Fixed s (s.registerService register os).1 := by
  unfold registerService
  split_ifs
  · exact .refl s
  · exact .refl s
  · split
    · exact .refl s
    · split <;> exact ⟨rfl, rfl, rfl, rfl⟩

theorem fixed_unregisterService (s : Server) (id : ServiceId) : Fixed s (s.unregisterService id) := by
  unfold unregisterService
  split <;> exact ⟨rfl, rfl, rfl, rfl⟩

theorem fixed_writing (s : Server) (m : Message) (o : WriteOutcome) : Fixed s (s.writing m o).1 := by
  rcases s.writing_cases m o with ⟨-, h⟩ | ⟨-, e, h⟩
  · rw [h]
    exact .refl s
  · rw [h]
    exact fixed_finish s _

theorem fixed_trySend (s : Server) (m : Message) : Fixed s (s.trySend m) := by
  unfold trySend
  split_ifs <;> exact ⟨rfl, rfl, rfl, rfl⟩

theorem fixed_onIncoming (s : Server) (m : Message) (os : BindOutcome) (o : WriteOutcome) :
    Fixed s (s.onIncoming m os o).1 := by
  unfold onIncoming
  split
  · exact (fixed_registerService s _ os).trans (fixed_writing _ _ o)
  · exact fixed_unregisterService s _
  · exact .refl s
  · exact fixed_writing s _ o
  · exact fixed_finish s _
  · exact fixed_finish s _

theorem fixed_onOutbound (s : Server) (m : Message) (rest : List Message) (o : WriteOutcome) :
    Fixed s (s.onOutbound m rest o).1 := by
  have hqueue : Fixed s { s with queue := rest } := ⟨rfl, rfl, rfl, rfl⟩
  have hwriting := hqueue.trans (fixed_writing { s with queue := rest } m o)
  unfold onOutbound
  dsimp only
  split
  · rename_i u ws deadline hw
    rw [hw] at hwriting
    dsimp only
    split
    · exact hwriting.trans (fixed_finish u _)
    · exact hwriting
  · exact hwriting

/-- **A step of the control loop** keeps what was agreed on at its start. -/
theorem fixed_step {e : ServerEvent} (h : s.step e = some (t, writes)) : Fixed s t := by
  have hpair {r : Server × List Write} (heq : r = (t, writes)) (hr : Fixed s r.1) :
      Fixed s t := by
    rwa [heq] at hr
  cases did_of_step h with
  | incoming _ heq => exact hpair heq (fixed_onIncoming s _ _ _)
  | outbound _ _ heq => exact hpair heq (fixed_onOutbound s _ _ _)
  | readFailed | cancelled | idle => exact fixed_finish s _
  | opened | drainQueued => exact fixed_trySend s _
  | childEnded | elsewhere => exact ⟨rfl, rfl, rfl, rfl⟩

/-- A branch is one of a loop that runs. -/
theorem running_of_branch {e : ServerEvent} (he : e.isBranch = true)
    (h : s.step e = some (t, writes)) : s.phase = .running := by
  cases did_of_step h with
  | opened | childEnded | elsewhere => cases he
  | incoming hrun | readFailed hrun | cancelled hrun | idle hrun | outbound hrun
  | drainQueued hrun => exact hrun

end Server

/-! ### The server -/

/-- The events of the Sessions themselves. -/
def HubEvent.isSessions : HubEvent → Bool
  | .connect _ _ _ | .greet _ _ | .control _ _ | .contextDropped _ => true
  | _ => false

namespace Hub

variable {s t u : Hub}

/-! #### Contexts keep their identity -/

/-- The same context, whatever has become of it. -/
structure SameContext (a b : ServerSession) : Prop where
  principal : b.principal = a.principal
  server : a.server.Fixed b.server

theorem SameContext.refl (a : ServerSession) : SameContext a a := ⟨rfl, .refl _⟩

/-- What every step leaves alone. -/
structure Steady (s t : Hub) : Prop where
  policy : t.policy = s.policy
  bindPolicy : t.bindPolicy = s.bindPolicy
  next : s.next ≤ t.next
  sessions : ∀ k session', t.sessions.lookup k = some session' →
    (∃ session, s.sessions.lookup k = some session ∧ SameContext session session') ∨
      k = s.next ∧ s.next < t.next

theorem Steady.of_eq (hpolicy : t.policy = s.policy) (hbind : t.bindPolicy = s.bindPolicy)
    (hnext : s.next ≤ t.next) (hsessions : t.sessions = s.sessions) : Steady s t :=
  ⟨hpolicy, hbind, hnext, fun _ session' h => .inl ⟨session', hsessions ▸ h, .refl _⟩⟩

/-- One Session is put back. -/
theorem Steady.of_insert {k : ContextId} {session session' : ServerSession}
    (hpolicy : t.policy = s.policy) (hbind : t.bindPolicy = s.bindPolicy)
    (hnext : s.next ≤ t.next) (hk : s.sessions.lookup k = some session)
    (hsessions : t.sessions = s.sessions.insert k session')
    (hsame : SameContext session session') : Steady s t := by
  refine ⟨hpolicy, hbind, hnext, fun a b h => ?_⟩
  rw [hsessions, Table.lookup_insert_eq] at h
  split_ifs at h with hak
  · obtain rfl := Option.some.inj h
    exact .inl ⟨session, hak ▸ hk, hsame⟩
  · exact .inl ⟨b, h, .refl b⟩

theorem Steady.conclude {k : ContextId} {session session' : ServerSession} {b : Bool}
    (hpolicy : u.policy = s.policy) (hbind : u.bindPolicy = s.bindPolicy)
    (hnext : s.next ≤ u.next) (hk : s.sessions.lookup k = some session)
    (hsame : SameContext session session') (hsessions : u.sessions = s.sessions) :
    Steady s (u.conclude k session' b) := by
  obtain ⟨r, -, heq⟩ := u.conclude_frame k session' b
  have hput : (u.conclude k session' b).sessions
      = s.sessions.insert k { session' with pending := r.1 } := by
    rw [heq, ← hsessions]
  rw [heq] at hput ⊢
  exact .of_insert hpolicy hbind hnext hk hput ⟨hsame.principal, hsame.server⟩

theorem fixed_lent (s : Hub) (session : ServerSession) : session.server.Fixed (s.lent session) :=
  ⟨rfl, rfl, rfl, rfl⟩

/-- **Contexts keep their identity**, and new ones get new numbers. -/
theorem steady_step {e : HubEvent} (h : s.step e = some t) : Steady s t := by
  cases took_of_step h with
  | connected =>
      refine ⟨rfl, rfl, Nat.le_succ _, fun k session' hk => ?_⟩
      dsimp only at hk
      rw [Table.lookup_insert_eq] at hk
      split_ifs at hk with heq
      · exact .inr ⟨heq, Nat.lt_succ_self _⟩
      · exact .inl ⟨session', hk, .refl _⟩
  | greeted hk => exact .of_insert rfl rfl le_rfl hk rfl ⟨rfl, .refl _⟩
  | unreached hk =>
      exact Steady.conclude rfl rfl le_rfl hk
        ⟨rfl, (s.fixed_lent _).trans (Server.fixed_finish _ _)⟩ rfl
  | @controlled k e session server writes hk hgreeted hbranch hstep =>
      obtain ⟨hhub, hsession⟩ := s.branch_frame k session e
      refine Steady.conclude ?_ ?_ ?_ hk ⟨?_, ?_⟩ ?_
      · rw [hhub]
      · rw [hhub]
      · rcases s.branch_tasks k session e with ⟨-, hnext⟩ | ⟨_, _, _, -, -, -, hnext, -⟩
        · exact hnext.ge
        · rw [hnext]
          exact Nat.le_succ _
      · rw [hsession]
      · exact (s.fixed_lent session).trans (Server.fixed_step hstep)
      · rw [hhub]
  | contextDropped =>
      refine ⟨rfl, rfl, le_rfl, fun a session' ha => ?_⟩
      dsimp only [Hub.contextDropped] at ha
      rw [Table.lookup_erase_eq] at ha
      split_ifs at ha
      exact .inl ⟨session', ha, .refl _⟩
  | inserted hat => exact .of_insert rfl rfl (Nat.le_succ _) hat.2 rfl ⟨rfl, .refl _⟩
  | advertised hat => exact .of_insert rfl rfl le_rfl hat.2 rfl ⟨rfl, Server.fixed_trySend _ _⟩
  | rolledBack hat | relaying hat | ended hat =>
      exact .of_insert rfl rfl le_rfl hat.2 rfl ⟨rfl, .refl _⟩
  | exited hat | abortedRollingBack hat | aborted hat =>
      exact .of_insert rfl rfl le_rfl hat.2 rfl ⟨rfl, ⟨rfl, rfl, rfl, rfl⟩⟩
  | unknown _ hk | mismatched _ hk | delivered _ hk | late _ hk =>
      exact .of_insert rfl rfl le_rfl hk rfl ⟨rfl, .refl _⟩
  | found | notFound => exact .of_eq rfl rfl (Nat.le_succ _) rfl
  | turnedAway | saturated | admitted | unidentified | full | unadvertised | left | received
  | gaveUp | relayDropped | helloDropped => exact .of_eq rfl rfl le_rfl rfl

/-- The numbers given out are below the next one. -/
def Numbered (s : Hub) : Prop := ∀ k session, s.sessions.lookup k = some session → k < s.next

theorem Numbered.step {e : HubEvent} (hs : Numbered s) (h : s.step e = some t) : Numbered t := by
  intro k session' hk
  have hsteady := steady_step h
  rcases hsteady.sessions k session' hk with ⟨session, hsession, -⟩ | ⟨rfl, hlt⟩
  · exact (hs k session hsession).trans_le hsteady.next
  · exact hlt

theorem Numbered.init (c : HubConfig) : Numbered (init c) := by
  intro k session hk
  cases hk

/-! #### The tables of the Sessions -/

/-- Nothing of the control loop has changed but its queue and its tasks. -/
structure SameTables (a b : ServerSession) : Prop extends SameContext a b where
  services : b.server.services = a.server.services
  names : b.server.names = a.server.names
  phase : b.server.phase = a.server.phase
  queue : ∀ m ∈ b.server.queue, m ∈ a.server.queue ∨ m.isNotice = true
  greeted : b.greeted = a.greeted
  tokens : b.tokens = a.tokens
  written : b.written = a.written
  served : b.served = a.served

theorem SameTables.refl (a : ServerSession) : SameTables a a :=
  ⟨.refl a, rfl, rfl, rfl, fun _ => .inl, rfl, rfl, rfl, rfl⟩

/-- The step is none of a control loop. -/
structure Aside (s t : Hub) : Prop where
  registry : t.registry = s.registry
  binds : t.counters.binds = s.counters.binds
  sessionGauge : t.counters.sessions = s.counters.sessions
  serviceGauge : t.counters.services = s.counters.services
  sessionIds : t.sessionIds = s.sessionIds
  put : t.sessions = s.sessions ∨ ∃ k session session', s.sessions.lookup k = some session ∧
    t.sessions = s.sessions.insert k session' ∧ SameTables session session'

/-- Every Session is still there, with its tables. -/
theorem Aside.forward (h : Aside s t) {k : ContextId} {session : ServerSession}
    (hk : s.sessions.lookup k = some session) :
    ∃ session', t.sessions.lookup k = some session' ∧ SameTables session session' := by
  rcases h.put with heq | ⟨a, old, new, ha, heq, hsame⟩
  · exact ⟨session, heq ▸ hk, .refl session⟩
  · rw [heq, Table.lookup_insert_eq]
    split_ifs with hka
    · subst hka
      obtain rfl := Option.some.inj (ha.symm.trans hk)
      exact ⟨new, rfl, hsame⟩
    · exact ⟨session, hk, .refl session⟩

/-- There is no new Session. -/
theorem Aside.backward (h : Aside s t) {k : ContextId} {session' : ServerSession}
    (hk : t.sessions.lookup k = some session') :
    ∃ session, s.sessions.lookup k = some session ∧ SameTables session session' := by
  rcases h.put with heq | ⟨a, old, new, ha, heq, hsame⟩
  · exact ⟨session', heq ▸ hk, .refl session'⟩
  · rw [heq, Table.lookup_insert_eq] at hk
    split_ifs at hk with hka
    · obtain rfl := Option.some.inj hk
      exact ⟨old, hka ▸ ha, hsame⟩
    · exact ⟨session', hk, .refl session'⟩

theorem Aside.of_eq (hregistry : t.registry = s.registry)
    (hbinds : t.counters.binds = s.counters.binds)
    (hsessionGauge : t.counters.sessions = s.counters.sessions)
    (hserviceGauge : t.counters.services = s.counters.services)
    (hids : t.sessionIds = s.sessionIds) (hsessions : t.sessions = s.sessions) : Aside s t :=
  ⟨hregistry, hbinds, hsessionGauge, hserviceGauge, hids, .inl hsessions⟩

theorem Aside.of_insert {k : ContextId} {session session' : ServerSession}
    (hregistry : t.registry = s.registry)
    (hbinds : t.counters.binds = s.counters.binds)
    (hsessionGauge : t.counters.sessions = s.counters.sessions)
    (hserviceGauge : t.counters.services = s.counters.services)
    (hids : t.sessionIds = s.sessionIds) (hk : s.sessions.lookup k = some session)
    (hsessions : t.sessions = s.sessions.insert k session') (hsame : SameTables session session') :
    Aside s t :=
  ⟨hregistry, hbinds, hsessionGauge, hserviceGauge, hids, .inr ⟨k, session, session', hk, hsessions, hsame⟩⟩

theorem sameTables_trySend (session : ServerSession) {m : Message} (hm : m.isNotice = true) :
    SameTables session { session with server := session.server.trySend m } := by
  refine ⟨⟨rfl, Server.fixed_trySend _ m⟩, ?_, ?_, ?_, (Server.kept_trySend _ hm).queue, rfl, rfl, rfl,
    rfl⟩
  all_goals
    unfold Server.trySend
    split_ifs <;> rfl

/-- **What the tasks do** touches no table of a Session. -/
theorem aside_step {e : HubEvent} (he : e.isSessions = false) (h : s.step e = some t) :
    Aside s t := by
  have hpending (session : ServerSession) (pending : PendingMap) :
      SameTables session { session with pending := pending } :=
    ⟨⟨rfl, .refl _⟩, rfl, rfl, rfl, fun _ => .inl, rfl, rfl, rfl, rfl⟩
  have hreap (session : ServerSession) (pending : PendingMap) (children : List ServiceId) :
      SameTables session { session with
        pending := pending
        server := { session.server with children := children } } :=
    ⟨⟨rfl, ⟨rfl, rfl, rfl, rfl⟩⟩, rfl, rfl, rfl, fun _ => .inl, rfl, rfl, rfl, rfl⟩
  cases took_of_step h with
  | turnedAway | connected | greeted | unreached | controlled | contextDropped => cases he
  | inserted hat | rolledBack hat | relaying hat | ended hat =>
      exact .of_insert rfl rfl rfl rfl rfl hat.2 rfl (hpending _ _)
  | advertised hat =>
      exact .of_insert rfl rfl rfl rfl rfl hat.2 rfl (sameTables_trySend _ rfl)
  | @exited r task session hat | @abortedRollingBack r task session c x hat
  | @aborted r task session hat =>
      exact .of_insert rfl rfl rfl rfl rfl hat.2 rfl (hreap session _ _)
  | unknown _ hk | mismatched _ hk | delivered _ hk | late _ hk =>
      exact .of_insert rfl rfl rfl rfl rfl hk rfl (hpending _ _)
  | saturated | admitted | unidentified | full | unadvertised | left | received | gaveUp
  | relayDropped | found | notFound | helloDropped => exact .of_eq rfl rfl rfl rfl rfl rfl

/-- What has become of the Session `k`, seen from after the step. -/
inductive SessionMove (s : Hub) (k : ContextId) (session' : ServerSession) : HubEvent → Prop
  | still {e : HubEvent} (session : ServerSession) (hk : s.sessions.lookup k = some session)
      (hsame : SameTables session session') : SessionMove s k session' e
  | begun (id : SessionId) (principal : Principal) (negotiated : Capabilities) (hk : k = s.next)
      (hfresh : session' = ⟨principal, s.newServer id negotiated, false, ∅, ∅, [], []⟩) :
      SessionMove s k session' (.connect id principal negotiated)
  | greeted (o : WriteOutcome) (session : ServerSession) (hk : s.sessions.lookup k = some session)
      (hbefore : session.greeted = false) (hrun : session.server.phase = .running)
      (hdone : o = .done)
      (hafter : session' = { session with
        greeted := true
        written := session.written ++ [(.authOk ⟨session.server.sessionId⟩, o)] }) :
      SessionMove s k session' (.greet k o)
  | unreached (o : WriteOutcome) (session : ServerSession) (error : TunnelError)
      (hk : s.sessions.lookup k = some session) (hbefore : session.greeted = false)
      (hrun : session.server.phase = .running)
      (hafter : session' = { session with
        server := (s.lent session).finish (.error error)
        written := session.written ++ [(.authOk ⟨session.server.sessionId⟩, o)] }) :
      SessionMove s k session' (.greet k o)
  | moved (e : ServerEvent) (session : ServerSession) (server : Server) (writes : List Write)
      (pending : PendingMap) (hk : s.sessions.lookup k = some session)
      (hgreeted : session.greeted = true) (hbranch : e.isBranch = true)
      (hstep : (s.lent session).step e = some (server, writes))
      (hafter : session' = { session with
        server
        pending
        tokens := (s.branch k session e).2.tokens
        written := session.written ++ writes
        served := (s.branch k session e).2.served }) :
      SessionMove s k session' (.control k e)

/-- **Inversion, for one Session.** -/
theorem sessionMove_of_step {e : HubEvent} (h : s.step e = some t) {k : ContextId}
    {session' : ServerSession} (hk' : t.sessions.lookup k = some session') :
    SessionMove s k session' e := by
  cases hsessions : e.isSessions with
  | false =>
    obtain ⟨session, hk, hsame⟩ := (aside_step hsessions h).backward hk'
    exact .still session hk hsame
  | true =>
    cases took_of_step h with
    | turnedAway => exact .still session' hk' (.refl session')
    | @connected id principal negotiated =>
        dsimp only at hk'
        rw [Table.lookup_insert_eq] at hk'
        split_ifs at hk' with hkk
        · exact .begun id principal negotiated hkk (Option.some.inj hk').symm
        · exact .still session' hk' (.refl session')
    | @greeted a o session hk hbefore hrun hdone =>
        dsimp only at hk'
        rw [Table.lookup_insert_eq] at hk'
        split_ifs at hk' with hkk
        · subst hkk
          exact .greeted o session hk hbefore hrun hdone (Option.some.inj hk').symm
        · exact .still session' hk' (.refl session')
    | @unreached a o session error hk hbefore hrun =>
        obtain ⟨_, _, heq⟩ := s.unreached_frame a session _ _
        rw [heq] at hk'
        dsimp only at hk'
        rw [Table.lookup_insert_eq] at hk'
        split_ifs at hk' with hkk
        · subst hkk
          exact .unreached o session error hk hbefore hrun (Option.some.inj hk').symm
        · exact .still session' hk' (.refl session')
    | @controlled a e session server writes hk hgreeted hbranch hstep =>
        obtain ⟨hhub, hsession⟩ := s.branch_frame a session e
        obtain ⟨r, -, heq⟩ := Hub.conclude_frame
          { (s.branch a session e).1 with counters := server.counters } a
          { (s.branch a session e).2 with
            server, written := (s.branch a session e).2.written ++ writes } (breaks e server)
        rw [heq] at hk'
        dsimp only at hk'
        rw [hhub, hsession, Table.lookup_insert_eq] at hk'
        split_ifs at hk' with hkk
        · subst hkk
          exact .moved e session server writes r.1 hk hgreeted hbranch hstep
            (Option.some.inj hk').symm
        · exact .still session' hk' (.refl session')
    | contextDropped =>
        dsimp only [Hub.contextDropped] at hk'
        rw [Table.lookup_erase_eq] at hk'
        split_ifs at hk'
        exact .still session' hk' (.refl session')
    | _ => cases hsessions

/-- The Session after a branch of its own. -/
theorem moved_of_control {k : ContextId} {e : ServerEvent} (h : s.step (.control k e) = some t) :
    ∃ session server writes pending, s.sessions.lookup k = some session ∧
      (s.lent session).step e = some (server, writes) ∧ t.counters = server.counters ∧
      t.sessions.lookup k = some { session with
        server
        pending
        tokens := (s.branch k session e).2.tokens
        written := session.written ++ writes
        served := (s.branch k session e).2.served } := by
  obtain ⟨session, server, writes, hk, -, -, hstep, rfl⟩ := did_of_step h
  obtain ⟨r, -, heq⟩ := Hub.conclude_frame
    { (s.branch k session e).1 with counters := server.counters } k
    { (s.branch k session e).2 with
      server, written := (s.branch k session e).2.written ++ writes } (breaks e server)
  refine ⟨session, server, writes, r.1, hk, hstep, ?_, ?_⟩
  · rw [heq]
  · rw [heq]
    dsimp only
    rw [AList.lookup_insert, (s.branch_frame k session e).2]

/-- A Session that has ended does not run again. -/
theorem ended_step {e : HubEvent} (hnumbered : Numbered s) (h : s.step e = some t) {k : ContextId}
    {session session' : ServerSession} (hk : s.sessions.lookup k = some session)
    (hended : session.server.phase ≠ .running) (hk' : t.sessions.lookup k = some session') :
    session'.server.phase ≠ .running := by
  -- the Session of a move is the one looked up
  have hthis {other : ServerSession} (hother : s.sessions.lookup k = some other) :
      other.server.phase ≠ .running := by
    rwa [← Option.some.inj (hk.symm.trans hother)]
  cases sessionMove_of_step h hk' with
  | still other hother hsame =>
      rw [hsame.phase]
      exact hthis hother
  | begun id principal negotiated hnext => exact absurd (hnumbered k session hk) (hnext ▸ lt_irrefl k)
  | greeted o other hother hbefore hrun hdone => exact absurd hrun (hthis hother)
  | unreached o other error hother hbefore hrun => exact absurd hrun (hthis hother)
  | moved e other server writes pending hother hgreeted hbranch hstep =>
      exact absurd (Server.running_of_branch hbranch hstep) (hthis hother)

/-! #### The registry -/

/-- The generated ids are fresh. -/
def fresh (s : Hub) : HubEvent → Bool
  | .connect id _ _ => id ∉ s.sessionIds
  | .accept _ (some c) => c ∉ s.generated
  | _ => true

/-- The registry holds exactly the Sessions that run, each under its own id. -/
structure Registered (s : Hub) : Prop where
  running : ∀ id k, s.registry.lookup id = some k → ∃ session, s.sessions.lookup k = some session ∧
    session.server.sessionId = id ∧ session.server.phase = .running
  live : ∀ k session, s.sessions.lookup k = some session → session.server.phase = .running →
    s.registry.lookup session.server.sessionId = some k
  ids : ∀ k session, s.sessions.lookup k = some session → session.server.sessionId ∈ s.sessionIds

theorem Registered.aside (hs : Registered s) (h : Aside s t) : Registered t where
  running id k hid := by
    rw [h.registry] at hid
    obtain ⟨session, hk, hid', hphase⟩ := hs.running id k hid
    obtain ⟨session', hk', hsame⟩ := h.forward hk
    exact ⟨session', hk', hsame.server.sessionId.trans hid', hsame.phase.trans hphase⟩
  live k session' hk' hphase := by
    obtain ⟨session, hk, hsame⟩ := h.backward hk'
    rw [h.registry, hsame.server.sessionId]
    exact hs.live k session hk (hsame.phase ▸ hphase)
  ids k session' hk' := by
    obtain ⟨session, hk, hsame⟩ := h.backward hk'
    rw [hsame.server.sessionId, h.sessionIds]
    exact hs.ids k session hk

/-- One Session is put back as it ran on. -/
theorem Registered.put (hs : Registered s) {k : ContextId} {session session' : ServerSession}
    (hk : s.sessions.lookup k = some session)
    (hsessions : t.sessions = s.sessions.insert k session')
    (hid : session'.server.sessionId = session.server.sessionId)
    (hrun : session.server.phase = .running) (hrun' : session'.server.phase = .running)
    (hregistry : t.registry = s.registry) (hids : t.sessionIds = s.sessionIds) : Registered t where
  running id a ha := by
    rw [hregistry] at ha
    obtain ⟨old, hold, hid', hphase⟩ := hs.running id a ha
    rw [hsessions, Table.lookup_insert_eq]
    split_ifs with hak
    · subst hak
      obtain rfl := Option.some.inj (hold.symm.trans hk)
      exact ⟨session', rfl, hid.trans hid', hrun'⟩
    · exact ⟨old, hold, hid', hphase⟩
  live a new hnew hphase := by
    rw [hsessions, Table.lookup_insert_eq] at hnew
    rw [hregistry]
    split_ifs at hnew with hak
    · obtain rfl := Option.some.inj hnew
      rw [hid, hak]
      exact hs.live k session hk hrun
    · exact hs.live a new hnew hphase
  ids a new hnew := by
    rw [hsessions, Table.lookup_insert_eq] at hnew
    rw [hids]
    split_ifs at hnew with hak
    · obtain rfl := Option.some.inj hnew
      rw [hid]
      exact hs.ids k session hk
    · exact hs.ids a new hnew

/-- One Session ends, and its guard takes its entry out. -/
theorem Registered.ended (hs : Registered s) {k : ContextId} {session session' : ServerSession}
    (hk : s.sessions.lookup k = some session)
    (hsessions : t.sessions = s.sessions.insert k session')
    (hid : session'.server.sessionId = session.server.sessionId)
    (hrun : session.server.phase = .running) (hend : session'.server.phase ≠ .running)
    (hregistry : t.registry = s.registry.erase session.server.sessionId)
    (hids : t.sessionIds = s.sessionIds) : Registered t where
  running id a ha := by
    rw [hregistry, Table.lookup_erase_eq] at ha
    split_ifs at ha with hne
    obtain ⟨old, hold, hid', hphase⟩ := hs.running id a ha
    rw [hsessions, Table.lookup_insert_eq, if_neg ?_]
    · exact ⟨old, hold, hid', hphase⟩
    · rintro rfl
      obtain rfl := Option.some.inj (hold.symm.trans hk)
      exact hne hid'.symm
  live a new hnew hphase := by
    rw [hsessions, Table.lookup_insert_eq] at hnew
    split_ifs at hnew with hak
    · obtain rfl := Option.some.inj hnew
      exact absurd hphase hend
    · -- two Sessions that run have two ids
      have hreg := hs.live a new hnew hphase
      rw [hregistry, Table.lookup_erase_eq, if_neg ?_]
      · exact hreg
      · intro heq
        rw [heq] at hreg
        exact hak (Option.some.inj (hreg.symm.trans (hs.live k session hk hrun)))
  ids a new hnew := by
    rw [hsessions, Table.lookup_insert_eq] at hnew
    rw [hids]
    split_ifs at hnew with hak
    · obtain rfl := Option.some.inj hnew
      rw [hid]
      exact hs.ids k session hk
    · exact hs.ids a new hnew

theorem Registered.conclude (hs : Registered s) {u : Hub} {k : ContextId}
    {session session' : ServerSession} {b : Bool} (hk : s.sessions.lookup k = some session)
    (hid : session'.server.sessionId = session.server.sessionId)
    (hrun : session.server.phase = .running) (hsessions : u.sessions = s.sessions)
    (hregistry : u.registry = s.registry) (hids : u.sessionIds = s.sessionIds) :
    Registered (u.conclude k session' b) := by
  unfold Hub.conclude
  rcases hphase : session'.server.phase with - | result
  · exact hs.put hk (congrArg (AList.insert k session') hsessions) hid hrun hphase hregistry hids
  · have hend : session'.server.phase ≠ .running := by simp [hphase]
    have herase : u.registry.erase session'.server.sessionId
        = s.registry.erase session.server.sessionId := by rw [hregistry, hid]
    have hput (pending : PendingMap) : u.sessions.insert k { session' with pending := pending }
        = s.sessions.insert k { session' with pending := pending } := by rw [hsessions]
    cases b with
    | true => exact hs.ended hk (hput ∅) hid hrun hend herase hids
    | false => exact hs.ended hk (hput session'.pending) hid hrun hend herase hids

/-- Only Sessions that nobody holds are pruned, and those that run are held. -/
theorem Registered.retain (hs : Registered s) :
    (s.registry.retain fun _ k => s.held k) = s.registry := by
  refine Table.retain_eq_self fun id k hreg => ?_
  obtain ⟨session, hk, -, hphase⟩ := hs.running id k hreg
  simp [held, hk, hphase]

/-- What a schedule has to meet: a new Session gets the id of none that runs. -/
def unused (s : Hub) : HubEvent → Bool
  | .connect id _ _ => (s.registry.lookup id).isNone
  | _ => true

theorem Registered.unused (hs : Registered s) {e : HubEvent} (hfresh : s.fresh e = true) :
    s.unused e = true := by
  cases e with
  | connect id principal negotiated =>
      have hnew : id ∉ s.sessionIds := by simpa [fresh] using hfresh
      show (s.registry.lookup id).isNone = true
      rw [Option.isNone_iff_eq_none, Option.eq_none_iff_forall_ne_some]
      intro k hreg
      obtain ⟨session, hk, rfl, -⟩ := hs.running id k hreg
      exact hnew (hs.ids k session hk)
  | _ => rfl

/-- **The registry holds exactly the Sessions that run.** -/
theorem Registered.step {e : HubEvent} (hs : Registered s) (hnumbered : Numbered s)
    (hunused : s.unused e = true) (h : s.step e = some t) : Registered t := by
  cases hsessions : e.isSessions with
  | false => exact hs.aside (aside_step hsessions h)
  | true =>
    cases took_of_step h with
    | turnedAway =>
        rw [hs.retain]
        exact ⟨hs.running, hs.live, fun k session hk => List.mem_cons_of_mem _ (hs.ids k session hk)⟩
    | @connected id =>
        have hfree : s.registry.lookup id = none := by simpa [Hub.unused] using hunused
        rw [hs.retain]
        refine ⟨fun id' k hreg => ?_, fun k session hk hphase => ?_, fun k session hk => ?_⟩
        · dsimp only at hreg ⊢
          rw [Table.lookup_insert_eq] at hreg ⊢
          split_ifs at hreg with hid
          · rw [if_pos (Option.some.inj hreg).symm]
            exact ⟨_, rfl, hid.symm, rfl⟩
          · obtain ⟨session, hk, hrest⟩ := hs.running id' k hreg
            rw [if_neg (hnumbered k session hk).ne]
            exact ⟨session, hk, hrest⟩
        · dsimp only at hk ⊢
          rw [Table.lookup_insert_eq] at hk ⊢
          split_ifs at hk with hkk
          · obtain rfl := Option.some.inj hk
            rw [hkk]
            exact if_pos rfl
          · have hreg := hs.live k session hk hphase
            rw [if_neg ?_]
            · exact hreg
            · rintro rfl
              cases hfree.symm.trans hreg
        · dsimp only at hk ⊢
          rw [Table.lookup_insert_eq] at hk
          split_ifs at hk with hkk
          · obtain rfl := Option.some.inj hk
            exact List.mem_cons_self
          · exact List.mem_cons_of_mem _ (hs.ids k session hk)
    | greeted hk _ hrun => exact hs.put hk rfl rfl hrun hrun rfl rfl
    | unreached hk _ hrun => exact hs.conclude hk rfl hrun rfl rfl rfl
    | @controlled k e session server writes hk hgreeted hbranch hstep =>
        have hframe := (s.branch_frame k session e).1
        refine hs.conclude hk ?_ (Server.running_of_branch hbranch hstep :) ?_ ?_ ?_
        · exact (Server.fixed_step hstep).sessionId
        · rw [hframe]
        · rw [hframe]
        · rw [hframe]
    | contextDropped hk hfree =>
        refine ⟨fun id a hreg => ?_, fun a other ha hphase => ?_, fun a other ha => ?_⟩
        · obtain ⟨other, ha, hid, hphase⟩ := hs.running id a hreg
          dsimp only [Hub.contextDropped]
          rw [Table.lookup_erase_eq, if_neg ?_]
          · exact ⟨other, ha, hid, hphase⟩
          · rintro rfl
            simp [held, ha, hphase] at hfree
        · dsimp only [Hub.contextDropped] at ha ⊢
          rw [Table.lookup_erase_eq] at ha
          split_ifs at ha
          exact hs.live a other ha hphase
        · dsimp only [Hub.contextDropped] at ha ⊢
          rw [Table.lookup_erase_eq] at ha
          split_ifs at ha
          exact hs.ids a other ha
    | _ => cases hsessions

theorem Registered.init (c : HubConfig) : Registered (init c) := by
  constructor <;> simp [Hub.init]

/-! #### Where a Session comes from -/

/-- A registry entry is from before the step, or of the Session just begun. -/
theorem registry_of_step {e : HubEvent} (h : s.step e = some t) {id : SessionId} {k : ContextId}
    (hid : t.registry.lookup id = some k) :
    s.registry.lookup id = some k ∨
      ∃ principal negotiated, e = .connect id principal negotiated ∧ k = s.next ∧
        s.next < t.next := by
  have hconclude {u : Hub} {a : ContextId} {session : ServerSession} {b : Bool}
      (hid : (u.conclude a session b).registry.lookup id = some k) (hu : u.registry = s.registry) :
      s.registry.lookup id = some k := by
    rw [registry_conclude, hu] at hid
    split_ifs at hid
    · exact hid
    · rw [Table.lookup_erase_eq] at hid
      split_ifs at hid
      exact hid
  cases hsessions : e.isSessions with
  | false =>
    rw [(aside_step hsessions h).registry] at hid
    exact .inl hid
  | true =>
    -- pruning takes entries out only
    have hretain (hid : (s.registry.retain fun _ k => s.held k).lookup id = some k) :
        s.registry.lookup id = some k := by
      rw [Table.lookup_retain] at hid
      exact (Option.filter_eq_some_iff.mp hid).1
    cases took_of_step h with
    | turnedAway => exact .inl (hretain hid)
    | @connected id' principal negotiated =>
        dsimp only at hid
        rw [Table.lookup_insert_eq] at hid
        split_ifs at hid with heq
        · subst heq
          exact .inr ⟨principal, negotiated, rfl, (Option.some.inj hid).symm, Nat.lt_succ_self _⟩
        · exact .inl (hretain hid)
    | greeted | contextDropped => exact .inl hid
    | unreached => exact .inl (hconclude hid rfl)
    | @controlled a e session =>
        refine .inl (hconclude hid ?_)
        rw [(s.branch_frame a session e).1]
    | _ => cases hsessions

/-- There is a context `k`, or a registry entry for it. -/
def Present (s : Hub) (k : ContextId) : Prop :=
  (∃ session, s.sessions.lookup k = some session) ∨ ∃ id, s.registry.lookup id = some k

/-- **Only `connect` brings a Session.** -/
theorem present_of_step {e : HubEvent} (h : s.step e = some t) {k : ContextId}
    (ht : t.Present k) :
    s.Present k ∨ ∃ id principal negotiated, e = .connect id principal negotiated ∧ k = s.next ∧
      s.next < t.next := by
  rcases ht with ⟨session', hk'⟩ | ⟨id, hid⟩
  · rcases (steady_step h).sessions k session' hk' with ⟨session, hk, -⟩ | ⟨hnext, hlt⟩
    · exact .inl (.inl ⟨session, hk⟩)
    · cases sessionMove_of_step h hk' with
      | begun id principal negotiated => exact .inr ⟨id, principal, negotiated, rfl, hnext, hlt⟩
      | still session hk | greeted o session hk | unreached o session error hk
      | moved e session server writes pending hk => exact .inl (.inl ⟨session, hk⟩)
  · rcases registry_of_step h hid with hbefore | ⟨principal, negotiated, rfl, hnew⟩
    · exact .inl (.inr ⟨id, hbefore⟩)
    · exact .inr ⟨id, principal, negotiated, rfl, hnew⟩

end Hub

end Eggtunnel
