/-
Eggtunnel/Accounting.lean

The pending counter counts the pending connections.

The maps of all contexts and the one counter they share are a `Ledger`.  Every
step of the server makes moves of that ledger: an insertion is one more entry,
and whoever takes entries out, by whichever of the seven paths, takes as many
off the counter.
-/
import Eggtunnel.HubSteps
import Eggtunnel.Ledger

namespace Eggtunnel

/-! ### The operations on one map -/

/-- Some entries are gone, and as many are taken off the gauge. -/
structure Withdrawn (pending : PendingMap) (gauge : Nat) (r : PendingMap × Nat) : Prop where
  entries : r.1.entries.Sublist pending.entries
  gauge : r.2 = fetchSub gauge (pending.size - r.1.size)

theorem Withdrawn.refl {pending : PendingMap} {gauge : Nat} (h : gauge < usizeValues) :
    Withdrawn pending gauge (pending, gauge) := by
  refine ⟨List.Sublist.refl _, ?_⟩
  show gauge = fetchSub gauge (pending.size - pending.size)
  rw [Nat.sub_self, fetchSub_of_le h (Nat.zero_le _), Nat.sub_zero]

theorem withdrawn_claimPending (pending : PendingMap) {gauge : Nat} (h : gauge < usizeValues)
    (c : ConnectionId) :
    Withdrawn pending gauge
      ((claimPending pending gauge c).1, (claimPending pending gauge c).2.1) := by
  unfold claimPending
  split
  · rename_i entry hc
    refine ⟨List.kerase_sublist _ _, ?_⟩
    have hsize := Table.size_erase hc
    show fetchSub gauge 1 = fetchSub gauge (pending.size - Table.size (pending.erase c))
    rw [show pending.size - Table.size (pending.erase c) = 1 by omega]
  · exact .refl h

theorem withdrawn_removeServicePending (pending : PendingMap) (gauge : Nat) (service : ServiceId) :
    Withdrawn pending gauge (removeServicePending pending gauge service) :=
  ⟨List.filter_sublist, rfl⟩

theorem withdrawn_removeAllPending (pending : PendingMap) (gauge : Nat) :
    Withdrawn pending gauge (removeAllPending pending gauge) :=
  ⟨List.nil_sublist _, rfl⟩

/-! ### The ledger of the server -/

namespace Hub

variable {s t : Hub} {k : ContextId} {session : ServerSession}

/-- The pending maps of all contexts and their shared gauge. -/
def ledger (s : Hub) : Ledger ContextId ConnectionId PendingEntry :=
  ⟨s.sessions.mapValues (·.pending), s.gauges.pending⟩

/-- Any number of moves other than an insertion. -/
abbrev Shrinks (s t : Hub) : Prop := Relation.ReflTransGen Ledger.Shrink s.ledger t.ledger

theorem shrinks_of_ledger_eq (h : t.ledger = s.ledger) : Shrinks s t := by
  show Relation.ReflTransGen Ledger.Shrink s.ledger t.ledger
  rw [h]

theorem books_eq_some (hk : s.sessions.lookup k = some session) :
    s.ledger.books.lookup k = some session.pending := by
  show (s.sessions.mapValues (·.pending)).lookup k = _
  rw [Table.lookup_mapValues, hk]
  rfl

/-- A Session is put back with fewer entries. -/
theorem shrinks_of_withdrawn (hk : s.sessions.lookup k = some session) {session' : ServerSession}
    {r : PendingMap × Nat} (hw : Withdrawn session.pending s.gauges.pending r)
    (hsessions : t.sessions = s.sessions.insert k session') (hpending : session'.pending = r.1)
    (hgauge : t.gauges.pending = r.2) : Shrinks s t := by
  have hledger : t.ledger = ⟨s.ledger.books.insert k r.1,
      fetchSub s.ledger.gauge (session.pending.size - r.1.size)⟩ := by
    show (⟨t.sessions.mapValues (·.pending), t.gauges.pending⟩ : Ledger _ _ _) = _
    rw [hsessions, Table.mapValues_insert, hpending, hgauge, hw.gauge]
    rfl
  show Relation.ReflTransGen Ledger.Shrink s.ledger t.ledger
  rw [hledger]
  exact .single (.withdraw k session.pending r.1 (books_eq_some hk) hw.entries)

/-- A Session is put back with its pending map unchanged. -/
theorem shrinks_of_kept (hword : s.gauges.pending < usizeValues)
    (hk : s.sessions.lookup k = some session) {session' : ServerSession}
    (hsessions : t.sessions = s.sessions.insert k session')
    (hpending : session'.pending = session.pending)
    (hgauge : t.gauges.pending = s.gauges.pending) : Shrinks s t :=
  shrinks_of_withdrawn hk (.refl hword) hsessions hpending hgauge

/-- A branch takes as many off the gauge as it takes entries out. -/
theorem withdrawn_branch (hword : s.gauges.pending < usizeValues) (k : ContextId)
    (session : ServerSession) (e : ServerEvent) :
    Withdrawn session.pending s.gauges.pending
      ((s.branch k session e).2.pending, (s.branch k session e).1.gauges.pending) := by
  unfold branch
  split
  · split <;> exact .refl hword
  · split
    · exact withdrawn_removeServicePending _ _ _
    · exact .refl hword
  · exact withdrawn_claimPending _ hword _
  · exact .refl hword

/-- The end of a branch, after the branch has taken some entries out. -/
theorem shrinks_conclude {u : Hub} {session' : ServerSession} {b : Bool}
    (hk : s.sessions.lookup k = some session)
    (hw : Withdrawn session.pending s.gauges.pending (session'.pending, u.gauges.pending))
    (hsessions : u.sessions = s.sessions) : Shrinks s (u.conclude k session' b) := by
  obtain ⟨r, hr, heq⟩ := u.conclude_frame k session' b
  -- the branch, and then what the teardown takes out
  have hbranch : Shrinks s { u with sessions := u.sessions.insert k session' } :=
    shrinks_of_withdrawn hk hw (congrArg (AList.insert k session') hsessions) rfl rfl
  rcases hr with rfl | ⟨-, -, rfl⟩
  · rw [heq]
    exact hbranch
  · refine hbranch.trans ?_
    have hput : ({ u with sessions := u.sessions.insert k session' } : Hub).sessions.lookup k
        = some session' := AList.lookup_insert _
    rw [heq]
    exact shrinks_of_withdrawn hput (withdrawn_removeAllPending _ _)
      (AList.insert_insert _).symm rfl rfl

/-- What a schedule has to meet: a new id is not pending in its Session. -/
def distinct (s : Hub) : HubEvent → Bool
  | .insert r _ =>
      match s.tasks.lookup r with
      | some task =>
          match task.state, s.sessions.lookup task.context with
          | .admitted c, some session => (session.pending.lookup c).isNone
          | _, _ => true
      | none => true
  | _ => true

theorem ledger_total (s : Hub) : s.ledger.total = s.pendingTotal := by
  show Table.total Table.size (s.sessions.mapValues (·.pending)) = _
  rw [Table.total_mapValues]
  rfl

/-- **Every step of the server is made of moves of the ledger.** -/
theorem ledger_step {e : HubEvent} (hnumbered : Numbered s)
    (hword : s.gauges.pending < usizeValues) (hdistinct : s.distinct e = true)
    (h : s.step e = some t) :
    (∃ r now, e = .insert r now ∧ t.issued.length = s.issued.length + 1 ∧
      Ledger.Grow s.policy.limits.pendingPerSession s.ledger t.ledger) ∨ Shrinks s t := by
  have hpost {k c session} (hk : s.sessions.lookup k = some session)
      (heq : t.sessions = s.sessions.insert k { session with
        pending := (claimPending session.pending s.gauges.pending c).1 })
      (hgauge : t.gauges.pending = (claimPending session.pending s.gauges.pending c).2.1) :
      Shrinks s t :=
    shrinks_of_withdrawn hk (withdrawn_claimPending _ hword c) heq rfl hgauge
  cases took_of_step h with
  | @connected id principal negotiated =>
      -- a new number is the key of no context yet
      have hnew : s.ledger.books.lookup s.next = none := by
        show (s.sessions.mapValues (·.pending)).lookup s.next = none
        rw [Table.lookup_mapValues, Option.map_eq_none_iff, Option.eq_none_iff_forall_ne_some]
        exact fun session hk => (hnumbered _ _ hk).false
      refine .inr (.single ?_)
      have hbegin := Ledger.Shrink.begin (l := s.ledger) s.next hnew
      show Ledger.Shrink s.ledger ⟨Table.mapValues (·.pending) (s.sessions.insert s.next
        ⟨principal, s.newServer id negotiated, false, ∅, ∅, [], []⟩), _⟩
      rw [Table.mapValues_insert]
      exact hbegin
  | unreached hk => exact .inr (shrinks_conclude hk (.refl hword) rfl)
  | @controlled k e session server writes hk =>
      have hsessions : (s.branch k session e).1.sessions = s.sessions := by
        rw [(s.branch_frame k session e).1]
      exact .inr (shrinks_conclude hk (withdrawn_branch hword k session e) hsessions)
  | @contextDropped k session hk =>
      -- what is left in the map goes with it
      refine .inr (.single ?_)
      have hdiscard := Ledger.Shrink.discard (l := s.ledger) k session.pending (books_eq_some hk)
      show Ledger.Shrink s.ledger ⟨Table.mapValues (·.pending) (s.sessions.erase k), _⟩
      rw [Table.mapValues_erase]
      exact hdiscard
  | @inserted r now task session c hat hstate hroom htotal =>
      have hfree : session.pending.lookup c = none := by
        simpa [distinct, hat.1, hat.2, hstate] using hdistinct
      refine .inl ⟨r, now, rfl, rfl, ?_⟩
      show Ledger.Grow _ s.ledger ⟨Table.mapValues (·.pending) (s.sessions.insert _ _), _⟩
      rw [Table.mapValues_insert]
      exact .issue task.context session.pending c _ (books_eq_some hat.2) hfree hroom
        (by rwa [ledger_total])
  | greeted hk => exact .inr (shrinks_of_kept hword hk rfl rfl rfl)
  | advertised hat | abortedRollingBack hat | aborted hat =>
      exact .inr (shrinks_of_kept hword hat.2 rfl rfl rfl)
  | @exited r task session hat =>
      exact .inr (shrinks_of_withdrawn hat.2
        (withdrawn_removeServicePending _ _ task.serviceId) rfl rfl rfl)
  | rolledBack hat | relaying hat | ended hat => exact .inr (hpost hat.2 rfl rfl)
  | unknown _ hk | mismatched _ hk | delivered _ hk | late _ hk => exact .inr (hpost hk rfl rfl)
  | turnedAway | saturated | admitted | unidentified | full | unadvertised | left | received
  | gaveUp | relayDropped | found | notFound | helloDropped => exact .inr (shrinks_of_ledger_eq rfl)

/-- What holds throughout: the ledger is balanced. -/
structure Reconciled (c : HubConfig) (s : Hub) : Prop where
  policy : s.policy = c.policy
  numbered : Numbered s
  balanced : s.ledger.Balanced c.policy.limits.pendingPerSession

variable {c : HubConfig}

theorem Reconciled.word (hs : Reconciled c s) : s.gauges.pending < usizeValues :=
  hs.balanced.gauge.trans_lt hs.balanced.word

/-- One step keeps the books, and moves the counter up only with an insertion. -/
theorem Reconciled.step {e : HubEvent} (hs : Reconciled c s) (hdistinct : s.distinct e = true)
    (h : s.step e = some t) :
    Reconciled c t ∧ (t.gauges.pending ≤ s.gauges.pending ∨
      ∃ r now, e = .insert r now ∧ t.gauges.pending = s.gauges.pending + 1) := by
  have hpolicy : t.policy = c.policy := (steady_step h).policy.trans hs.policy
  have hnumbered := hs.numbered.step h
  rcases ledger_step hs.numbered hs.word hdistinct h with ⟨r, now, he, -, hgrow⟩ | hshrinks
  · rw [hs.policy] at hgrow
    obtain ⟨hbalanced, hgauge⟩ := hgrow.balanced hs.balanced
    exact ⟨⟨hpolicy, hnumbered, hbalanced⟩, .inr ⟨r, now, he, hgauge⟩⟩
  · obtain ⟨hbalanced, hle⟩ := hs.balanced.shrink hshrinks
    exact ⟨⟨hpolicy, hnumbered, hbalanced⟩, .inl hle⟩

theorem Reconciled.init (c : HubConfig) : Reconciled c (init c) := by
  refine ⟨rfl, Numbered.init c, rfl, ?_, fun k b hk => ?_⟩
  · show 0 < 2 ^ 64
    decide
  · cases hk

/-- **The pending counter.**  In every interleaving in which a new id is not
still pending in its Session, after every step the counter is the number of
entries in the maps of all contexts, no map is larger than its bound, the
counter is zero once there is no context, and no decrement wraps. -/
theorem pending_accounting (c : HubConfig) (es : List HubEvent) (s : Hub)
    (hdistinct : AllSteps step (fun s e => s.distinct e = true) (init c) es)
    (hrun : exec step (init c) es = some s) :
    s.gauges.pending = s.pendingTotal ∧
    (∀ k session, s.sessions.lookup k = some session →
      session.pending.size ≤ c.policy.limits.pendingPerSession) ∧
    (s.sessions = ∅ → s.gauges.pending = 0) ∧
    (∀ e t, s.distinct e = true → s.step e = some t →
      t.gauges.pending ≤ s.gauges.pending ∨
        ∃ r now, e = .insert r now ∧ t.gauges.pending = s.gauges.pending + 1) := by
  have hs : Reconciled c s :=
    exec_inv (fun _ _ _ hs hd h => (hs.step hd h).1) (Reconciled.init c) hdistinct hrun
  have htotal : s.gauges.pending = s.pendingTotal := hs.balanced.gauge.trans s.ledger_total
  refine ⟨htotal, fun k session hk => hs.balanced.bounded k _ (books_eq_some hk),
    fun hempty => ?_, fun e t hd h => (hs.step hd h).2⟩
  rw [htotal, pendingTotal, hempty]
  rfl

/-- A server with the default policies. -/
def smallHub : HubConfig := ⟨.default, .default, by decide +kernel, by decide +kernel⟩

/-- A Session without a principal registers the Service `web`, and an external
connection is accepted under the id `c`. -/
def acceptOne (id : SessionId) (c : ConnectionId) : List HubEvent :=
  [.connect id none legacyPeer, .greet 0 .done,
    .control 0 (.incoming (.registerService webService.registration)
      (.bound (.v6 localhostOctets 1000)) .done),
    .accept 1 (some c), .insert 1 0]

/-- The `Open` goes out, the data connection comes back, and the Session ends. -/
def relayAndEnd (id : SessionId) (c : ConnectionId) : List HubEvent :=
  acceptOne id c ++ [.advertise 1, .dataHello ⟨id, webService.id, c⟩ none, .resolve 3 1,
    .received 2, .release 2, .control 0 .cancelled, .taskDropped 1, .relayDropped 2,
    .contextDropped 0]

/-- A `SessionId`. -/
def sampleId : SessionId := ⟨Vector.replicate 16 7⟩
/-- A `ConnectionId`. -/
def sampleConnection : ConnectionId := ⟨Vector.replicate 16 9⟩

/-- The server after that run. -/
def afterRelay : Hub :=
  (exec step (init smallHub) (relayAndEnd sampleId sampleConnection)).get (by decide +kernel)

theorem pending_accounting_after_relay :
    exec step (init smallHub) (relayAndEnd sampleId sampleConnection) = some afterRelay ∧
    afterRelay.deliveries.length = 1 ∧ afterRelay.gauges.pending = 0 :=
  have hrun := Option.eq_some_of_isSome _
  ⟨hrun, by decide +kernel, (pending_accounting smallHub _ afterRelay (by decide +kernel) hrun).2.2.1
    (Table.size_eq_zero_iff.mp (by decide +kernel))⟩

end Hub

end Eggtunnel
