/-
Eggtunnel/Tide.lean

What a step of the server does to its gauges and to their marks.

Most steps leave the gauges alone, or lower the count of pending connections.
Each of the others raises one gauge together with its mark, or lowers one.
A registration raises the count of Services before its acknowledgement is
written; if that write fails, the same branch takes the Service off again.
-/
import Eggtunnel.Peak
import Eggtunnel.Accounting
import Eggtunnel.ServiceTables

namespace Eggtunnel

/-! ### Branches -/

namespace Server

variable {s t : Server} {e : ServerEvent} {writes : List Write}

/-- What only an accepted registration changes. -/
def marks (s : Server) : Nat × Nat × Nat :=
  (s.counters.highWaterServices, s.counters.openTasks, s.counters.highWaterOpenTasks)

theorem marks_finish (s : Server) (result : Except TunnelError Unit) :
    (s.finish result).marks = s.marks := rfl

theorem marks_writing (s : Server) (m : Message) (o : WriteOutcome) :
    (s.writing m o).1.marks = s.marks := by
  unfold writing
  split <;> rfl

theorem marks_trySend (s : Server) (m : Message) : (s.trySend m).marks = s.marks := by
  unfold trySend
  split_ifs <;> rfl

theorem marks_onOutbound (s : Server) (m : Message) (rest : List Message) (o : WriteOutcome) :
    (s.onOutbound m rest o).1.marks = s.marks := by
  have hwrite := ({ s with queue := rest } : Server).marks_writing m o
  unfold onOutbound
  dsimp only
  split
  · rename_i u ws deadline heq
    rw [heq] at hwrite
    dsimp only
    split
    · exact (u.marks_finish _).trans hwrite
    · exact hwrite
  · exact hwrite

theorem marks_onIncoming (s : Server) (m : Message) (os : BindOutcome) (o : WriteOutcome) :
    (s.onIncoming m os o).1.marks = (s.edited (.incoming m os o)).marks := by
  unfold onIncoming edited
  cases m with
  | registerService register => exact marks_writing _ _ o
  | ping ping => exact marks_writing _ _ o
  | _ => rfl

theorem marks_of_step (he : e.isBranch = true) (h : s.step e = some (t, writes)) :
    t.marks = (s.edited e).marks := by
  have hpair {r : Server × List Write} (heq : r = (t, writes)) {u : Server}
      (hr : r.1.marks = u.marks) : t.marks = u.marks := by
    rwa [heq] at hr
  cases did_of_step h with
  | opened | childEnded | elsewhere => cases he
  | incoming _ heq => exact hpair heq (s.marks_onIncoming _ _ _)
  | readFailed | cancelled | idle => rfl
  | outbound _ _ heq => exact hpair heq (s.marks_onOutbound _ _ _)
  | drainQueued => exact s.marks_trySend _

theorem marks_unregisterService (s : Server) (id : ServiceId) :
    (s.unregisterService id).marks = s.marks := by
  unfold unregisterService
  split <;> rfl

/-- A registration whose acknowledgement is written leaves the Session running. -/
theorem running_of_written {u : Server} {register : RegisterService} {os : BindOutcome}
    {bind : EffectiveBind} (hr : s.registerService register os = (u, .accepted bind))
    (h : s.step (.incoming (.registerService register) os .done) = some (t, writes)) :
    t.phase = .running := by
  have hrun : s.phase = .running := running_of_branch rfl h
  simp only [step, hrun, onIncoming, hr] at h
  rcases u.writing_cases (response u.negotiated register.serviceId (.accepted bind)) .done with
    ⟨-, hw⟩ | ⟨hne, -⟩
  · obtain ⟨rfl, -⟩ := Prod.mk.inj (hw.symm.trans (Option.some.inj h))
    exact (registerService_frame hr).2.2.2.trans hrun
  · exact absurd rfl hne

/-- A registration that is accepted raises the count and its mark. -/
theorem counters_of_accepted {register : RegisterService} {os : BindOutcome} {bind : EffectiveBind}
    (h : s.registerService register os = (t, .accepted bind)) :
    t.counters.services = fetchAdd s.counters.services 1 ∧
      t.marks = (max s.counters.highWaterServices (fetchAdd s.counters.services 1),
        s.counters.openTasks, s.counters.highWaterOpenTasks) := by
  obtain rfl := (accepted_of_registerService h).result
  exact ⟨rfl, rfl⟩

theorem openTasks_edited (s : Server) (e : ServerEvent) : (s.edited e).marks.2 = s.marks.2 := by
  rcases s.edited_cases e with heq | ⟨register, os, o, bind, -, hr⟩ |
    ⟨unregister, os, o, name, -, -, heq⟩
  · rw [heq]
  · rw [(counters_of_accepted hr).2]
    rfl
  · rw [heq, marks_unregisterService]

end Server

/-! ### Steps -/

namespace Hub

variable {s t : Hub}

/-- The event may enter an id in a pending map. -/
def inserts : HubEvent → Bool
  | .insert _ _ => true
  | _ => false

/-- The step `e` from `s` leads to `t`, as far as gauges, marks and the number
of relays go. -/
inductive Tide (s : Hub) : HubEvent → Hub → Prop
  | still {e t} (hcounters : ∃ category,
        t.counters = { s.counters with lastTermination := category })
      (hgauges : ∃ pending rejected, t.gauges = { s.gauges with pending, rejected })
      (hpending : inserts e = true → t.gauges.pending = s.gauges.pending)
      (hrelays : t.relays.size = s.relays.size) : Tide s e t
  | connected {id principal negotiated t}
      (hcounters : t.counters
        = { s.counters with sessions := fetchAdd s.counters.sessions 1 })
      (hgauges : t.gauges = { s.gauges with
        highWaterSessions := max s.gauges.highWaterSessions (fetchAdd s.counters.sessions 1) })
      (hrelays : t.relays = s.relays) : Tide s (.connect id principal negotiated) t
  /-- `AuthOk` could not be written -/
  | unreached {k o session t} (hk : s.sessions.lookup k = some session)
      (hrun : session.server.phase = .running)
      (hcounters : t.counters = (s.lent session).dropGuard.counters)
      (hgauges : t.gauges = s.gauges) (hrelays : t.relays = s.relays) : Tide s (.greet k o) t
  | branched {k e session server writes t} (hk : s.sessions.lookup k = some session)
      (hbranch : e.isBranch = true) (hstep : (s.lent session).step e = some (server, writes))
      (hcounters : t.counters = server.counters)
      (hgauges : ∃ pending, t.gauges = { s.gauges with pending })
      (hrelays : t.relays = s.relays) : Tide s (.control k e) t
  | inserted {r now t} (hcounters : t.counters = s.counters)
      (hgauges : t.gauges = { s.gauges with
        pending := fetchAdd s.gauges.pending 1
        highWaterPending := max s.gauges.highWaterPending (fetchAdd s.gauges.pending 1) })
      (hrelays : t.relays = s.relays) : Tide s (.insert r now) t
  | relayed {r t} (x : ExternalId) (relay : RelayTask) (hcounters : t.counters = s.counters)
      (hgauges : t.gauges = { s.gauges with
        activeConnections := fetchAdd s.gauges.activeConnections 1
        highWaterActiveConnections :=
          max s.gauges.highWaterActiveConnections (fetchAdd s.gauges.activeConnections 1) })
      (hrelays : t.relays = s.relays.insert x relay) : Tide s (.advertise r) t
  | ended {e t} (x : ExternalId) (relay : RelayTask) (he : inserts e = false)
      (hx : s.relays.lookup x = some relay)
      (hcounters : t.counters = s.counters)
      (hgauges : ∃ pending, t.gauges = { s.gauges with
        pending
        activeConnections := fetchSub s.gauges.activeConnections 1 })
      (hrelays : t.relays = s.relays.erase x) : Tide s e t

theorem Tide.of_eq {e : HubEvent} (he : inserts e = false) (hcounters : t.counters = s.counters)
    (hgauges : ∃ pending rejected, t.gauges = { s.gauges with pending, rejected })
    (hrelays : t.relays = s.relays) : Tide s e t :=
  .still ⟨_, hcounters⟩ hgauges (fun h => by rw [he] at h; cases h) (by rw [hrelays])

/-- A relay that goes on is the same relay. -/
theorem size_setRelay {x : ExternalId} {relay : RelayTask} (hx : s.relays.lookup x = some relay)
    (state : RelayState) : (s.setRelay x relay state).relays.size = s.relays.size := by
  show Table.size (s.relays.insert x _) = _
  rw [Table.size_insert, Table.size_erase hx]

/-- **What a step does to the gauges and their marks.** -/
theorem tide_of_step {e : HubEvent} (h : s.step e = some t) : Tide s e t := by
  cases took_of_step h with
  | connected => exact .connected rfl rfl rfl
  | unreached hk _ hrun => exact .unreached hk hrun rfl rfl rfl
  | @controlled k e session server writes hk hgreeted hbranch hstep =>
      obtain ⟨_, _, gauge, _, _, _, heq⟩ :=
        s.controlled_frame k session e server writes (breaks e server)
      rw [heq]
      exact .branched hk hbranch hstep rfl ⟨gauge, rfl⟩ rfl
  | turnedAway | saturated | full => exact .still ⟨_, rfl⟩ ⟨_, _, rfl⟩ (fun _ => rfl) rfl
  | inserted => exact .inserted rfl rfl rfl
  | advertised => exact .relayed _ _ rfl rfl rfl
  | received hat | gaveUp hat =>
      exact .still ⟨_, rfl⟩ ⟨_, _, rfl⟩ (fun _ => rfl) (size_setRelay hat.1 _)
  | relaying hat =>
      refine .still ⟨_, rfl⟩ ⟨_, _, rfl⟩ (by simp [inserts]) ?_
      exact size_setRelay (s := s.claimed _ _ _) hat.1 _
  | ended hat | relayDropped hat => exact .ended _ _ rfl hat.1 rfl ⟨_, rfl⟩ rfl
  | greeted | contextDropped | admitted | unidentified | unadvertised | rolledBack | left | exited
  | abortedRollingBack | aborted | found | notFound | unknown | mismatched | delivered | late
  | helloDropped => exact .of_eq rfl rfl ⟨_, _, rfl⟩ rfl

/-! ### Marks -/

variable {c : HubConfig} {e : HubEvent}

/-- A Session that runs has been counted. -/
theorem Tabled.sessions_pos (hs : Tabled c s) {k : ContextId} {session : ServerSession}
    (hk : s.sessions.lookup k = some session) (hrun : session.server.phase = .running) :
    fetchSub s.counters.sessions 1 ≤ s.counters.sessions := by
  have hsize := Table.size_erase (hs.registered.live k session hk hrun)
  have hguards := hs.shared.guards
  have hlimit := hs.shared.limit
  have hmax := (limits_range c).1
  rw [fetchSub_of_le _ (by omega)]
  · exact Nat.sub_le _ _
  · show s.counters.sessions < 2 ^ 64
    omega

theorem sessions_rises (hs : Tabled c s)
    (hcovers : s.counters.sessions ≤ s.gauges.highWaterSessions) (h : s.step e = some t) :
    t.gauges.highWaterSessions = max s.gauges.highWaterSessions t.counters.sessions := by
  cases tide_of_step h with
  | still hcounters hgauges =>
      obtain ⟨category, hcounters⟩ := hcounters
      obtain ⟨pending, rejected, hgauges⟩ := hgauges
      exact rises_of_le (by rw [hgauges]) (by rw [hcounters]) hcovers
  | connected hcounters hgauges => rw [hcounters, hgauges]
  | unreached hk hrun hcounters hgauges =>
      refine rises_of_le (by rw [hgauges]) ?_ hcovers
      rw [hcounters]
      exact hs.sessions_pos hk hrun
  | @branched k e session server writes _ hk hbranch hstep hcounters hgauges =>
      obtain ⟨pending, hgauges⟩ := hgauges
      refine rises_of_le (by rw [hgauges]) ?_ hcovers
      have hsame : ((s.lent session).edited e).counters.sessions = s.counters.sessions :=
        ((s.lent session).binds_edited e).2
      rw [hcounters]
      rcases Server.step_edited hbranch hstep with ⟨-, htables⟩ | ⟨-, htables⟩
      · obtain ⟨-, -, -, -, hsessions⟩ := Server.Tables.mk.inj htables
        rw [hsessions, hsame]
      · obtain ⟨-, -, -, -, hsessions⟩ := Server.Tables.mk.inj htables
        refine hsessions.le.trans ?_
        show fetchSub ((s.lent session).edited e).counters.sessions 1 ≤ _
        rw [hsame]
        have hrun : (s.lent session).phase = .running := Server.running_of_branch hbranch hstep
        exact hs.sessions_pos hk hrun
  | inserted hcounters hgauges | relayed _ _ hcounters hgauges =>
      exact rises_of_le (by rw [hgauges]) (by rw [hcounters]) hcovers
  | ended _ _ _ _ hcounters hgauges =>
      obtain ⟨pending, hgauges⟩ := hgauges
      exact rises_of_le (by rw [hgauges]) (by rw [hcounters]) hcovers

/-- A registration that the step accepts is acknowledged in it. -/
def Whole (s : Hub) (e : HubEvent) : Prop :=
  ∀ k register os o session server bind, e = .control k (.incoming (.registerService register) os o) →
    s.sessions.lookup k = some session →
    (s.lent session).registerService register os = (server, .accepted bind) → o = .done

/-- A branch removes binds, unless it accepts a registration. -/
theorem services_branch {k : ContextId} {session : ServerSession} {server : Server}
    {writes : List Write} {e : ServerEvent} (hs : Tabled c s) (ht : Tabled c t)
    (hwhole : s.Whole (.control k e)) (hk : s.sessions.lookup k = some session)
    (hbranch : e.isBranch = true) (hstep : (s.lent session).step e = some (server, writes))
    (hcounters : t.counters = server.counters)
    (hcovers : s.counters.services ≤ s.counters.highWaterServices) :
    t.counters.highWaterServices
      = max s.counters.highWaterServices t.counters.services := by
  have hmarks := Server.marks_of_step hbranch hstep
  have hends := Server.step_edited hbranch hstep
  have hlower (hedited : ((s.lent session).edited e).marks = (s.lent session).marks)
      (hbinds : ((s.lent session).edited e).counters.binds.length ≤ s.counters.binds.length) :
      t.counters.highWaterServices
        = max s.counters.highWaterServices t.counters.services := by
    refine rises_of_le ?_ ?_ hcovers
    · rw [hcounters]
      exact (Prod.mk.inj (hmarks.trans hedited)).1
    · rw [ht.shared.filed.gauge, hs.shared.filed.gauge, hcounters]
      refine le_trans ?_ hbinds
      rcases hends with ⟨-, htables⟩ | ⟨-, htables⟩
      · obtain ⟨-, -, hsame, -⟩ := Server.Tables.mk.inj htables
        rw [hsame]
      · obtain ⟨-, -, hsame, -⟩ := Server.Tables.mk.inj htables
        rw [hsame]
        exact List.length_filter_le _ _
  rcases (s.lent session).edited_cases e with heq | ⟨register, os, o, bind, rfl, hr⟩ |
    ⟨unregister, os, o, name, rfl, hname, heq⟩
  · refine hlower ?_ ?_ <;> rw [heq]
    exact le_rfl
  · -- the acknowledgement is written, so the Session goes on
    obtain rfl := hwhole k register os o session _ bind rfl hk hr
    obtain ⟨hservices, hraised⟩ := Server.counters_of_accepted hr
    have hserver : server.counters.services = fetchAdd s.counters.services 1 := by
      rw [← show _ = fetchAdd s.counters.services 1 from hservices]
      rcases hends with ⟨-, htables⟩ | ⟨hended, -⟩
      · exact (Server.Tables.mk.inj htables).2.2.2.1
      · exact absurd (Server.running_of_written hr hstep) hended
    rw [hcounters, (Prod.mk.inj (hmarks.trans hraised)).1, hserver]
    rfl
  · obtain ⟨-, -, hremoved, -⟩ := Server.Tables.mk.inj (Server.tables_of_removed hname)
    refine hlower ?_ ?_
    · rw [heq, Server.marks_unregisterService]
    · rw [heq, hremoved]
      exact List.length_filter_le _ _

theorem services_rises (hs : Tabled c s) (ht : Tabled c t) (hwhole : s.Whole e)
    (hcovers : s.counters.services ≤ s.counters.highWaterServices) (h : s.step e = some t) :
    t.counters.highWaterServices
      = max s.counters.highWaterServices t.counters.services := by
  cases tide_of_step h with
  | still hcounters =>
      obtain ⟨category, hcounters⟩ := hcounters
      exact rises_of_le (by rw [hcounters]) (by rw [hcounters]) hcovers
  | unreached hk hrun hcounters =>
      refine rises_of_le (by rw [hcounters]; rfl) ?_ hcovers
      rw [ht.shared.filed.gauge, hs.shared.filed.gauge, hcounters]
      exact List.length_filter_le _ _
  | branched hk hbranch hstep hcounters =>
      exact services_branch hs ht hwhole hk hbranch hstep hcounters hcovers
  | connected hcounters | inserted hcounters | relayed _ _ hcounters | ended _ _ _ _ hcounters =>
      exact rises_of_le (by rw [hcounters]) (by rw [hcounters]) hcovers

theorem pending_rises (hs : Reconciled c s) (hdistinct : s.distinct e = true)
    (hcovers : s.gauges.pending ≤ s.gauges.highWaterPending) (h : s.step e = some t) :
    t.gauges.highWaterPending = max s.gauges.highWaterPending t.gauges.pending := by
  have hle (he : inserts e = true → t.gauges.pending ≤ s.gauges.pending) :
      t.gauges.pending ≤ s.gauges.pending := by
    rcases (hs.step hdistinct h).2 with hle | ⟨r, now, rfl, -⟩
    · exact hle
    · exact he rfl
  cases tide_of_step h with
  | still hcounters hgauges hpending =>
      obtain ⟨pending, rejected, hgauges⟩ := hgauges
      exact rises_of_le (by rw [hgauges]) (hle fun he => (hpending he).le) hcovers
  | inserted hcounters hgauges => rw [hgauges]
  | connected hcounters hgauges | unreached _ _ hcounters hgauges | relayed _ _ hcounters hgauges =>
      exact rises_of_le (by rw [hgauges]) (hle nofun) hcovers
  | branched _ _ _ hcounters hgauges =>
      obtain ⟨pending, hgauges⟩ := hgauges
      exact rises_of_le (by rw [hgauges]) (hle nofun) hcovers
  | ended _ _ he _ hcounters hgauges =>
      obtain ⟨pending, hgauges⟩ := hgauges
      refine rises_of_le (by rw [hgauges]) (hle fun h => ?_) hcovers
      rw [he] at h
      cases h

/-- Every relay has been counted, in a gauge that may have wrapped. -/
def Relayed (s : Hub) : Prop :=
  Counts s.relays.size s.gauges.activeConnections s.gauges.highWaterActiveConnections

theorem Relayed.init (c : HubConfig) : Relayed (init c) := Counts.zero 0

theorem Relayed.step (hs : Relayed s) (h : s.step e = some t) : Relayed t := by
  have hkept (hsize : t.relays.size = s.relays.size)
      (hgauge : t.gauges.activeConnections = s.gauges.activeConnections)
      (hmark : t.gauges.highWaterActiveConnections = s.gauges.highWaterActiveConnections) :
      Relayed t := by
    unfold Relayed
    rw [hsize, hgauge, hmark]
    exact hs
  cases tide_of_step h with
  | still hcounters hgauges hpending hrelays =>
      obtain ⟨pending, rejected, hgauges⟩ := hgauges
      exact hkept hrelays (by rw [hgauges]) (by rw [hgauges])
  | relayed x relay hcounters hgauges hrelays =>
      unfold Relayed
      rw [hgauges, hrelays, Table.size_insert]
      exact hs.add.mono (Nat.succ_le_succ (Table.size_erase_le s.relays x))
  | ended x relay he hx hcounters hgauges hrelays =>
      obtain ⟨pending, hgauges⟩ := hgauges
      have hsize := Table.size_erase hx
      unfold Relayed
      rw [hgauges, hrelays]
      exact (hs.mono hsize.le).sub
  | connected _ hgauges hrelays | unreached _ _ _ hgauges hrelays | inserted _ hgauges hrelays =>
      exact hkept (by rw [hrelays]) (by rw [hgauges]) (by rw [hgauges])
  | branched _ _ _ _ hgauges hrelays =>
      obtain ⟨pending, hgauges⟩ := hgauges
      exact hkept (by rw [hrelays]) (by rw [hgauges]) (by rw [hgauges])

theorem Relayed.rises (hs : Relayed s) (h : s.step e = some t) :
    t.gauges.highWaterActiveConnections
      = max s.gauges.highWaterActiveConnections t.gauges.activeConnections := by
  have hcovers := (hs.step h).covers
  have hkept (hmark : t.gauges.highWaterActiveConnections
      = s.gauges.highWaterActiveConnections) : t.gauges.highWaterActiveConnections
        = max s.gauges.highWaterActiveConnections t.gauges.activeConnections := by
    rw [hmark] at hcovers ⊢
    exact (max_eq_left hcovers).symm
  cases tide_of_step h with
  | still hcounters hgauges =>
      obtain ⟨pending, rejected, hgauges⟩ := hgauges
      exact hkept (by rw [hgauges])
  | relayed x relay hcounters hgauges => rw [hgauges]
  | connected _ hgauges | unreached _ _ _ hgauges | inserted _ hgauges => exact hkept (by rw [hgauges])
  | branched _ _ _ _ hgauges | ended _ _ _ _ _ hgauges =>
      obtain ⟨pending, hgauges⟩ := hgauges
      exact hkept (by rw [hgauges])

/-- No server runs Open tasks. -/
theorem openTasks_of_step (h : s.step e = some t) :
    t.counters.openTasks = s.counters.openTasks ∧
      t.counters.highWaterOpenTasks = s.counters.highWaterOpenTasks := by
  cases tide_of_step h with
  | still hcounters =>
      obtain ⟨category, hcounters⟩ := hcounters
      rw [hcounters]
      exact ⟨rfl, rfl⟩
  | @branched k e session server writes _ hk hbranch hstep hcounters =>
      have hmarks := congrArg Prod.snd (Server.marks_of_step hbranch hstep)
      rw [Server.openTasks_edited] at hmarks
      rw [hcounters]
      exact Prod.mk.inj hmarks
  | connected hcounters | unreached _ _ hcounters | inserted hcounters =>
      rw [hcounters]
      exact ⟨rfl, rfl⟩
  | relayed _ _ hcounters | ended _ _ _ _ hcounters =>
      rw [hcounters]
      exact ⟨rfl, rfl⟩

end Hub

end Eggtunnel
