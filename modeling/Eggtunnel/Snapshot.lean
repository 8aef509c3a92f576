/-
Eggtunnel/Snapshot.lean

What the client's snapshot shows in the course of a run of `drive`.

A `Monitor` is a run together with its counters, which outlive the loop, and
two things that no counter tells: `acks`, the effective binds of the
acknowledgements that the current Session has accepted, and `settled`, whether
no Session has become ready since the last attempt ended.

The entries of the bind table stand in the order of the desired Services.
During the initial exchange they are those of the Services already
acknowledged; in a ready Session they are all (`Client.Shows`).
-/
import Eggtunnel.Drive
import Eggtunnel.Tally

namespace Eggtunnel

/-! ### Active and desired Services -/

namespace ServiceState

variable {s u : ServiceState} {id : ServiceId} {generation limit : Nat}

/-- In a ready Session the active ids are those of the desired Services. -/
theorem keys_active (hr : s.Represented limit) (hc : s.Current generation) :
    s.active.keys.Perm (s.desired.map (·.id)) := by
  have hids : (s.desired.map (·.id)).Nodup :=
    hr.ids.sublist ((List.sublist_append_left _ _).map _)
  refine (List.perm_ext_iff_of_nodup s.active.nodupKeys hids).mpr fun id => ?_
  constructor
  · intro hmem
    obtain ⟨service, hlook⟩ := Option.isSome_iff_exists.mp (AList.lookup_isSome.mpr hmem)
    obtain ⟨rfl, hdesired⟩ := hr.active _ _ hlook
    exact List.mem_map_of_mem hdesired
  · intro hmem
    obtain ⟨service, hdesired, rfl⟩ := List.mem_map.mp hmem
    refine AList.lookup_isSome.mp ?_
    rw [hc.active service hdesired]
    rfl

theorem size_active (hr : s.Represented limit) (hc : s.Current generation) :
    s.active.size = s.desired.length := by
  have hlength := (keys_active hr hc).length_eq
  rwa [List.length_map, AList.keys, List.keys, List.length_map] at hlength

theorem present_unregister (s : ServiceState) (id : ServiceId) :
    (s.unregister id).2.2 = (s.active.lookup id).isSome := by
  show (((s.cancelPending id).1.cancelInFlight id).1.active.lookup id).isSome = _
  rw [(kept_cancelInFlight _ id).2, (kept_cancelPending s id).2]

/-- An acknowledgement commits the Service that it names. -/
theorem id_of_takeAck (hr : s.Represented limit) {closed : CallerId → Bool}
    {service : ClientService} {reply : Option CallerId}
    (h : s.takeAck id generation closed = (u, .commit service reply)) : service.id = id := by
  obtain ⟨txn, home, htake, -, rfl, -⟩ := takeAck_eq_commit h
  rcases takeTransaction_eq_found htake with ⟨-, hid, -⟩ | ⟨-, hlook, -⟩
  · exact hid
  · exact hr.keyed id txn hlook

end ServiceState

/-! ### One Session -/

namespace Client

variable {s t : Client} {fx : Effects} {acks : Table ServiceId EffectiveBind} {settled : Bool}

/-- The acknowledgement that a step accepts. -/
def acknowledged (s : Client) : ClientEvent → Option RegisterAck
  | .incoming (.registerAck ack) _ =>
      match s.phase with
      | .registering (service :: _) true => if ack.serviceId = service.id then some ack else none
      | .ready =>
          match (s.services.takeAck ack.serviceId s.generation s.isClosed).2 with
          | .commit _ _ => some ack
          | _ => none
      | _ => none
  | _ => none

/-- The acknowledgements after a step. -/
def note (acks : Table ServiceId EffectiveBind) : Option RegisterAck → Table ServiceId EffectiveBind
  | some ack => acks.insert ack.serviceId ack.effectiveBind
  | none => acks

/-- What the counters of a Session show. -/
structure Shows (s : Client) (acks : Table ServiceId EffectiveBind) (settled : Bool) : Prop where
  quiet : settled = true → s.counters.connected = 0 ∧ s.counters.services = 0
  tagged : settled = true ∨ s.phase = .ready → ∀ b ∈ s.counters.binds,
    b.session = s.sessionId ∧ acks.lookup b.service = some b.bind
  registering : ∀ todo sent, s.phase = .registering todo sent → settled = true ∧
    s.counters.binds.map (·.service) ++ todo.map (·.id) = s.services.desired.map (·.id)
  ready : s.phase = .ready → settled = false ∧ s.counters.connected = 1 ∧
    s.counters.services = s.services.desired.length ∧
    s.counters.binds.map (·.service) = s.services.desired.map (·.id)

/-- An entry for a new Service leaves the others as they are. -/
theorem tagged_append {binds : BindTable} {session : SessionId} {ack : RegisterAck}
    (htagged : ∀ b ∈ binds, b.session = session ∧ acks.lookup b.service = some b.bind)
    (hfresh : ack.serviceId ∉ binds.map (·.service)) :
    ∀ b ∈ binds ++ [⟨session, ack.serviceId, ack.effectiveBind⟩],
      b.session = session ∧ (note acks (some ack)).lookup b.service = some b.bind := by
  intro b hb
  unfold note
  rw [Table.lookup_insert_eq]
  rcases List.mem_append.mp hb with hold | hnew
  · have hne : b.service ≠ ack.serviceId := fun heq => hfresh (heq ▸ List.mem_map_of_mem hold)
    rw [if_neg hne]
    exact htagged b hold
  · obtain rfl := List.mem_singleton.mp hnew
    exact ⟨rfl, if_pos rfl⟩

/-- The next Service of the initial exchange is acknowledged. -/
theorem Shows.acked {service : ClientService} {todo : List ClientService} {ack : RegisterAck}
    (hs : Shows s acks settled) (hids : (s.services.desired.map (·.id)).Nodup)
    (hphase : s.phase = .registering (service :: todo) true) (hid : ack.serviceId = service.id)
    (ht : t = ({ s with counters := { s.counters with
      binds := s.counters.binds ++ [⟨s.sessionId, service.id, ack.effectiveBind⟩] } } :
        Client).continueRegistering todo) :
    Shows t (note acks (some ack)) (settled && t.phase ≠ .ready) := by
  obtain ⟨hsettled, hbinds⟩ := hs.registering _ _ hphase
  obtain ⟨hconnected, hservices⟩ := hs.quiet hsettled
  have hfresh : ack.serviceId ∉ s.counters.binds.map (·.service) := by
    rw [← hbinds, List.nodup_append] at hids
    rw [hid]
    exact fun hmem => hids.2.2 _ hmem _ List.mem_cons_self rfl
  have htagged := tagged_append (hs.tagged (.inl hsettled)) hfresh
  rw [hid] at htagged
  have hentries : (s.counters.binds ++ [BindEntry.mk s.sessionId service.id
      ack.effectiveBind]).map (·.service) ++ todo.map (·.id) = s.services.desired.map (·.id) := by
    rw [← hbinds, List.map_append, List.append_assoc]
    rfl
  cases todo with
  | nil =>
      obtain rfl := ht
      refine ⟨fun h => ?_, fun _ => htagged, fun _ _ h => ?_, fun _ => ⟨?_, rfl, rfl, ?_⟩⟩
      · simp [continueRegistering, becomeReady] at h
      · cases h
      · simp [continueRegistering, becomeReady]
      · exact (List.append_nil _).symm.trans hentries
  | cons next rest =>
      obtain rfl := ht
      refine ⟨fun _ => ⟨hconnected, hservices⟩, fun _ => htagged, fun todo sent h => ?_,
        fun h => ?_⟩
      · cases h
        exact ⟨by simp [hsettled, continueRegistering], hentries⟩
      · cases h

/-- A dynamic registration is committed. -/
theorem Shows.committed {ack : RegisterAck} {service : ClientService} {reply : Option CallerId}
    {services : ServiceState} {limit generation : Nat} (hs : Shows s acks settled)
    (hready : s.phase = .ready)
    (htake : s.services.takeAck ack.serviceId s.generation s.isClosed
      = (services, .commit service reply))
    (hr : s.services.Represented limit)
    (hr' : (services.commit service).Represented limit)
    (hc' : (services.commit service).Current generation)
    (ht : t = { s with
      services := services.commit service
      counters := { s.counters with
        binds := s.counters.binds ++ [⟨s.sessionId, service.id, ack.effectiveBind⟩]
        services := (services.commit service).active.size
        highWaterServices :=
          max s.counters.highWaterServices (services.commit service).active.size } }) :
    Shows t (note acks (some ack)) (settled && t.phase ≠ .ready) := by
  obtain ⟨hsettled, hconnected, -, hbinds⟩ := hs.ready hready
  have hid := ServiceState.id_of_takeAck hr htake
  have hdesired : services.desired = s.services.desired := by
    have hkept := ServiceState.kept_settled s.services ack.serviceId
    rw [← ServiceState.takeAck_fst s.services ack.serviceId s.generation s.isClosed, htake] at hkept
    exact hkept.1
  have hfresh : ack.serviceId ∉ s.counters.binds.map (·.service) := by
    have hids : ((services.desired ++ [service]).map (·.id)).Nodup :=
      hr'.ids.sublist ((List.sublist_append_left _ _).map _)
    rw [List.map_append, List.nodup_append, hdesired] at hids
    rw [hbinds, ← hid]
    exact fun hmem => hids.2.2 _ hmem _ List.mem_cons_self rfl
  have htagged := tagged_append (hs.tagged (.inr hready)) hfresh
  rw [← hid] at htagged
  have hphase : t.phase = .ready := by
    rw [ht]
    exact hready
  subst ht
  refine ⟨fun h => ?_, fun _ => htagged, fun todo sent h => ?_, fun _ => ⟨?_, hconnected, ?_, ?_⟩⟩
  · rw [hsettled] at h
    cases h
  · cases hphase.symm.trans h
  · rw [hsettled]
    rfl
  · exact ServiceState.size_active hr' hc'
  · show (s.counters.binds ++ [_]).map _ = (services.desired ++ [service]).map _
    rw [List.map_append, List.map_append, hbinds, hdesired]
    rfl

theorem acknowledged_eq_some {e : ClientEvent} {ack : RegisterAck}
    (hack : s.acknowledged e = some ack) (h : s.step e = some (t, fx)) :
    (∃ service todo, s.phase = .registering (service :: todo) true ∧ ack.serviceId = service.id ∧
      t = ({ s with counters := { s.counters with
        binds := s.counters.binds ++ [⟨s.sessionId, service.id, ack.effectiveBind⟩] } } :
          Client).continueRegistering todo) ∨
    ∃ service reply services, s.phase = .ready ∧
      s.services.takeAck ack.serviceId s.generation s.isClosed = (services, .commit service reply) ∧
      t = { s with
        services := services.commit service
        counters := { s.counters with
          binds := s.counters.binds ++ [⟨s.sessionId, service.id, ack.effectiveBind⟩]
          services := (services.commit service).active.size
          highWaterServices :=
            max s.counters.highWaterServices (services.commit service).active.size } } := by
  unfold acknowledged at hack
  split at hack
  · rename_i ack' o
    split at hack
    · rename_i service todo hphase
      split_ifs at hack with hid
      obtain rfl := Option.some.inj hack
      simp only [step, hphase] at h
      obtain ⟨rfl, -⟩ := Prod.mk.inj (Option.some.inj h)
      refine .inl ⟨service, todo, hphase, hid, ?_⟩
      exact if_pos hid
    · rename_i hphase
      split at hack
      · rename_i service reply htake
        obtain rfl := Option.some.inj hack
        obtain ⟨services, hpair⟩ : ∃ services, s.services.takeAck ack'.serviceId s.generation
            s.isClosed = (services, .commit service reply) := ⟨_, Prod.ext rfl htake⟩
        simp only [step, hphase, onIncoming, onRegisterAck, hpair] at h
        obtain ⟨rfl, -⟩ := Prod.mk.inj (Option.some.inj h)
        exact .inr ⟨service, reply, services, hphase, hpair, by rw [hphase]⟩
      · cases hack
    · cases hack
  · cases hack

/-- The counters and the desired Services stay as they are. -/
theorem Shows.still (hs : Shows s acks settled) (hsession : t.sessionId = s.sessionId)
    (hconnected : t.counters.connected = s.counters.connected)
    (hservices : t.counters.services = s.counters.services)
    (hbinds : t.counters.binds = s.counters.binds)
    (hdesired : t.services.desired = s.services.desired) (hphase : Continues s.phase t.phase) :
    Shows t acks (settled && t.phase ≠ .ready) where
  quiet h := by
    rw [hconnected, hservices]
    exact hs.quiet (Bool.and_eq_true_iff.mp h).1
  tagged h := by
    rw [hbinds, hsession]
    exact hs.tagged (h.imp (fun h => (Bool.and_eq_true_iff.mp h).1) hphase.ready)
  registering todo sent h := by
    obtain ⟨sent', hsent⟩ := hphase.registering todo sent h
    obtain ⟨hsettled, heq⟩ := hs.registering todo sent' hsent
    rw [hbinds, hdesired, hsettled, h]
    exact ⟨rfl, heq⟩
  ready h := by
    obtain ⟨hsettled, heq⟩ := hs.ready (hphase.ready h)
    rw [hconnected, hservices, hbinds, hdesired, hsettled]
    exact ⟨rfl, heq⟩

/-- A ready Session ends. -/
theorem Shows.left (hs : Shows s acks settled) (hready : s.phase = .ready)
    (hclosed : t.phase.isOpen = false) : Shows t acks (settled && t.phase ≠ .ready) := by
  have hsettled : (settled && t.phase ≠ .ready) = false := by
    rw [(hs.ready hready).1]
    rfl
  have hne : t.phase ≠ .ready := fun h => by
    rw [h] at hclosed
    cases hclosed
  rw [hsettled]
  refine ⟨fun h => (nomatch h), fun h => ?_, fun todo sent h => ?_, fun h => absurd h hne⟩
  · exact absurd h (not_or.mpr ⟨Bool.false_ne_true, hne⟩)
  · rw [h] at hclosed
    cases hclosed

/-- A Service is unregistered. -/
theorem Shows.unregistered {id : ServiceId} {limit generation : Nat} (hs : Shows s acks settled)
    (hready : s.phase = .ready) (hr' : (s.services.unregister id).1.Represented limit)
    (hc' : (s.services.unregister id).1.Current generation)
    (ht : t = { s with
      services := (s.services.unregister id).1
      counters := { s.counters with
        services := (s.services.unregister id).1.active.size
        binds := s.counters.binds.filter (·.service ≠ id) } }) :
    Shows t acks (settled && t.phase ≠ .ready) := by
  obtain ⟨hsettled, hconnected, -, hbinds⟩ := hs.ready hready
  have hphase : t.phase = .ready := by
    rw [ht]
    exact hready
  subst ht
  refine ⟨fun h => ?_, fun _ b hb => ?_, fun todo sent h => ?_, fun _ => ⟨?_, hconnected, ?_, ?_⟩⟩
  · rw [hsettled] at h
    cases h
  · exact hs.tagged (.inr hready) b (List.mem_filter.mp hb).1
  · cases hphase.symm.trans h
  · rw [hsettled]
    rfl
  · exact ServiceState.size_active hr' hc'
  · -- both lists lose the same ids
    show (s.counters.binds.filter _).map _ = (s.services.unregister id).1.desired.map _
    rw [(ServiceState.lists_unregister s.services id).1]
    have hfilter := congrArg (List.filter fun x => decide (x ≠ id)) hbinds
    rwa [List.filter_map, List.filter_map] at hfilter

/-- No acknowledgement is accepted. -/
theorem Shows.unacknowledged {e : ClientEvent} {limit : Nat} (hs : Shows s acks settled)
    (hack : s.acknowledged e = none)
    (hc : s.phase = .ready → s.services.Current s.generation)
    (hr' : t.services.Represented limit)
    (hc' : t.phase = .ready → t.services.Current t.generation)
    (h : s.step e = some (t, fx)) : Shows t acks (settled && t.phase ≠ .ready) := by
  have hleft (hready : s.phase = .ready) (hne : t.phase ≠ .ready) :
      Shows t acks (settled && t.phase ≠ .ready) := by
    refine hs.left hready ?_
    by_contra hopen
    exact hne (ready_of_step hready h (Bool.not_eq_false _ ▸ hopen))
  cases tally_of_step h with
  | still hopens hcounters hsession hkept hphase =>
      exact hs.still hsession (by rw [hcounters]) (by rw [hcounters]) (by rw [hcounters]) hkept.1
        hphase
  | acked hphase hid ht =>
      simp only [acknowledged, hphase, if_pos hid, reduceCtorEq] at hack
  | dialed hready hactive ht =>
      subst ht
      exact hs.still rfl rfl rfl rfl rfl (.refl _)
  | finished task hmem hopens hcounters hsession hservices hphase =>
      refine hs.still hsession (by rw [hcounters]) (by rw [hcounters]) (by rw [hcounters])
        (by rw [hservices]) ?_
      rw [hphase]
      exact .refl _
  | committed hready htake ht =>
      simp only [acknowledged, hready, htake, reduceCtorEq] at hack
  | unregistered hready hpresent ht =>
      have hcurrent := hc' (by rw [ht]; exact hready)
      rw [ht] at hr' hcurrent
      exact hs.unregistered hready hr' hcurrent ht
  | withdrawn hready habsent ht =>
      rename_i id reply o now
      have hdesired : (s.services.unregister id).1.desired = s.services.desired := by
        rw [(ServiceState.lists_unregister s.services id).1]
        refine List.filter_eq_self.mpr fun service hmem => decide_eq_true fun heq => ?_
        have hactive := (hc hready).active service hmem
        rw [ServiceState.present_unregister, ← heq, hactive] at habsent
        cases habsent
      subst ht
      exact hs.still rfl rfl rfl rfl hdesired (.refl _)
  | unregisteredLast hready hpresent hopens hcounters hphase => exact hleft hready hphase
  | dropped hready hopens hcounters hphase => exact hleft hready hphase
  | tornDown hphase hopens hcounters hsession hphase' =>
      obtain ⟨result, hresult⟩ := hphase'
      refine ⟨fun hsettled => ?_, fun hor => ?_, fun todo sent hopen => ?_, fun hready => ?_⟩
      · rw [hcounters]
        exact ⟨rfl, (hs.quiet (Bool.and_eq_true_iff.mp hsettled).1).2⟩
      · rw [hcounters, hsession]
        refine hs.tagged (hor.imp (fun hsettled => (Bool.and_eq_true_iff.mp hsettled).1) ?_)
        exact fun hready => by cases hresult.symm.trans hready
      · cases hresult.symm.trans hopen
      · cases hresult.symm.trans hready

/-- **A step of a Session, as far as its counters show it.** -/
theorem Shows.step {e : ClientEvent} {limit : Nat} (hs : Shows s acks settled)
    (hr : s.services.Represented limit) (hr' : t.services.Represented limit)
    (hc : s.phase = .ready → s.services.Current s.generation)
    (hc' : t.phase = .ready → t.services.Current t.generation)
    (h : s.step e = some (t, fx)) :
    Shows t (note acks (s.acknowledged e)) (settled && t.phase ≠ .ready) := by
  have hids : (s.services.desired.map (·.id)).Nodup :=
    hr.ids.sublist ((List.sublist_append_left _ _).map _)
  rcases hack : s.acknowledged e with - | ack
  · exact hs.unacknowledged hack hc hr' hc' h
  · rcases acknowledged_eq_some hack h with ⟨service, todo, hphase, hid, ht⟩ |
      ⟨service, reply, services, hready, htake, ht⟩
    · exact hs.acked hids hphase hid ht
    · have hcurrent := hc' (by rw [ht]; exact hready)
      rw [ht] at hr' hcurrent
      exact hs.committed hready htake hr hr' hcurrent ht

/-- A Session starts with its desired Services to register. -/
theorem Shows.start (policy : RuntimePolicy) (sessionId : SessionId) (correlated : Bool)
    (services : ServiceState) {counters : Counters} (closed : List CallerId)
    (hconnected : counters.connected = 0) (hservices : counters.services = 0)
    (hbinds : counters.binds = []) :
    Shows (start policy sessionId correlated services counters closed).1 ∅
      ((start policy sessionId correlated services counters closed).1.phase ≠ .ready) := by
  have hnone {b : BindEntry} (hb : b ∈ counters.binds) : False := by
    rw [hbinds] at hb
    cases hb
  unfold Client.start Counters.beginSession
  by_cases hbegun : counters.sessionGeneration + 1 < 2 ^ 64
  · simp only [if_pos hbegun]
    show Shows (Client.continueRegistering _ services.desired) _
      ((Client.continueRegistering _ services.desired).phase ≠ .ready)
    have hids {l : List ClientService} (hdesired : services.desired = l) :
        counters.binds.map (·.service) ++ l.map (·.id) = services.desired.map (·.id) := by
      rw [hbinds, hdesired]
      rfl
    rcases hdesired : services.desired with - | ⟨first, rest⟩
    · refine ⟨fun h => ?_, fun _ b hb => (hnone hb).elim, fun todo sent h => (nomatch h),
        fun _ => ⟨rfl, rfl, rfl, ?_⟩⟩
      · cases h
      · exact (List.append_nil _).symm.trans (hids hdesired)
    · refine ⟨fun _ => ⟨hconnected, hservices⟩, fun _ b hb => (hnone hb).elim,
        fun todo sent h => ?_, fun h => (nomatch h)⟩
      cases h
      exact ⟨rfl, hids hdesired⟩
  · simp only [if_neg hbegun]
    exact ⟨fun _ => ⟨hconnected, hservices⟩, fun _ b hb => (hnone hb).elim,
      fun todo sent h => (nomatch h), fun h => (nomatch h)⟩

end Client

/-! ### Whole runs -/

/-- A run of `drive` with what its snapshots show. -/
structure Monitor where
  drive : Drive
  /-- the counters after the loop -/
  final : Counters
  acks : Table ServiceId EffectiveBind
  settled : Bool

/-- What can happen to a supervisor that is watched. -/
inductive MonitorEvent
  | drive (e : DriveEvent)
  /-- the cancellation ends the wait for the next attempt -/
  | stopWaiting

namespace Monitor

/-- Before the first attempt. -/
def init (c : DriveConfig) : Monitor := ⟨Drive.init c, .new, ∅, true⟩

/-- The shared counters, wherever they are lent. -/
def counters (s : Monitor) : Counters :=
  match s.drive.stage with
  | .apart _ counters _ => counters
  | .session client => client.counters
  | .stopped _ _ => s.final

/-- What a way out of the loop leaves behind. -/
def closing (s : Monitor) : DriveEvent → Counters
  | .attemptFailed e => (ReconnectSupervisor.finish (.error e) s.counters).1
  | .sessionOver =>
      match s.drive.phase? with
      | some (.returned result) => (ReconnectSupervisor.finish result s.counters).1
      | _ => s.counters
  -- an attempt is cut short; a Session is dropped
  | .stop =>
      match s.drive.stage with
      | .session client =>
          (ReconnectSupervisor.finish (.error .cancelled) client.dropSession.counters).1
      | _ => (ReconnectSupervisor.finish (.error .cancelled) s.counters).1
  | _ => s.counters

/-- The acknowledgements of the current Session. -/
def noted (s : Monitor) : DriveEvent → Table ServiceId EffectiveBind
  | .authenticated _ _ => ∅
  | .client e =>
      match s.drive.stage with
      | .session client => Client.note s.acks (client.acknowledged e)
      | _ => s.acks
  | _ => s.acks

/-- No Session has become ready since the last attempt ended. -/
def settles (settled : Bool) : Stage → Bool
  | .session client => settled && client.phase ≠ .ready
  | _ => true

/-- One move of the supervisor. -/
def step (s : Monitor) : MonitorEvent → Option Monitor
  | .drive e => (s.drive.step e).map fun drive =>
      { drive
        final := s.closing e
        acks := s.noted e
        settled := settles s.settled drive.stage }
  | .stopWaiting =>
      match s.drive.stage with
      | .apart _ counters _ => (s.drive.step .stop).map fun drive =>
          { s with drive, final := counters }
      | _ => none

/-- What the counters show, wherever the loop stands. -/
structure Truthful (s : Monitor) : Prop where
  orderly : s.drive.Orderly
  session : ∀ client, s.drive.stage = .session client → client.Shows s.acks s.settled
  outside : (∀ client, s.drive.stage ≠ .session client) →
    s.counters.connected = 0 ∧ s.counters.services = 0 ∧ s.counters.binds = [] ∧ s.settled = true

variable {s t : Monitor}

theorem finish_clears (result : Except TunnelError Unit) (counters : Counters) :
    (ReconnectSupervisor.finish result counters).1.connected = 0 ∧
      (ReconnectSupervisor.finish result counters).1.services = 0 ∧
      (ReconnectSupervisor.finish result counters).1.binds = [] := by
  unfold ReconnectSupervisor.finish
  split <;> exact ⟨rfl, rfl, rfl⟩

/-- Outside a Session there is nothing to show. -/
theorem Truthful.of_outside (ho : t.drive.Orderly)
    (hstage : ∀ client, t.drive.stage ≠ .session client) {counters : Counters}
    (hcounters : t.counters = counters)
    (h : counters.connected = 0 ∧ counters.services = 0 ∧ counters.binds = [])
    (hsettled : t.settled = true) : Truthful t := by
  refine ⟨ho, fun client hclient => absurd hclient (hstage client), fun _ => ?_⟩
  rw [hcounters]
  exact ⟨h.1, h.2.1, h.2.2, hsettled⟩

theorem Truthful.of_apart {services : ServiceState} {counters : Counters} {closed : List CallerId}
    (ho : t.drive.Orderly) (hstage : t.drive.stage = .apart services counters closed)
    (h : counters.connected = 0 ∧ counters.services = 0 ∧ counters.binds = [])
    (hsettled : t.settled = true) : Truthful t := by
  refine .of_outside ho (fun client hclient => ?_) ?_ h hsettled
  · cases hstage.symm.trans hclient
  · unfold Monitor.counters
    rw [hstage]

theorem Truthful.of_stopped {services : ServiceState} {closed : List CallerId}
    (ho : t.drive.Orderly) (hstage : t.drive.stage = .stopped services closed)
    (h : t.final.connected = 0 ∧ t.final.services = 0 ∧ t.final.binds = [])
    (hsettled : t.settled = true) : Truthful t := by
  refine .of_outside ho (fun client hclient => ?_) ?_ h hsettled
  · cases hstage.symm.trans hclient
  · unfold Monitor.counters
    rw [hstage]

/-- Back in the loop or out of it, the counters are cleared. -/
theorem Truthful.of_finish {result : Except TunnelError Unit} {services : ServiceState}
    {counters : Counters} {closed : List CallerId} {settled : Bool} (ho : t.drive.Orderly)
    (hdrive : t.drive = s.drive.finish result services counters closed)
    (hfinal : t.final = (ReconnectSupervisor.finish result counters).1)
    (hsettled : t.settled = settles settled t.drive.stage) : Truthful t := by
  have hclear := finish_clears result counters
  unfold Drive.finish at hdrive
  split at hdrive
  · rename_i counters' heq
    rw [heq] at hclear
    refine .of_apart ho (by rw [hdrive]) hclear ?_
    rw [hsettled, hdrive]
    rfl
  · refine .of_stopped ho (by rw [hdrive]) (hfinal ▸ hclear) ?_
    rw [hsettled, hdrive]
    rfl

/-- A step of the Session. -/
theorem Truthful.of_session {client : Client} {e : ClientEvent} {r : Client × Effects}
    (hs : Truthful s) (hstage : s.drive.stage = .session client) (hstep : client.step e = some r)
    (ho : t.drive.Orderly) (hpolicy : t.drive.policy = s.drive.policy)
    (hsession : t.drive.stage = .session r.1)
    (hacks : t.acks = Client.note s.acks (client.acknowledged e))
    (hsettled : t.settled = (s.settled && r.1.phase ≠ .ready)) : Truthful t := by
  have hr := hs.orderly.represented
  rw [Drive.services_of_session hstage] at hr
  have hr' := ho.represented
  rw [Drive.services_of_session hsession, hpolicy] at hr'
  refine ⟨ho, fun client' hclient => ?_, fun hout => absurd hsession (hout r.1)⟩
  rw [hsession] at hclient
  cases hclient
  rw [hacks, hsettled]
  exact (hs.session client hstage).step hr hr' (hs.orderly.current client hstage)
    (ho.current r.1 hsession) hstep

/-- **A step keeps the snapshot truthful.** -/
theorem Truthful.step {e : MonitorEvent} (hs : Truthful s) (h : s.step e = some t) :
    Truthful t := by
  have hapart {services : ServiceState} {counters : Counters} {closed : List CallerId}
      (hstage : s.drive.stage = .apart services counters closed) :
      (counters.connected = 0 ∧ counters.services = 0 ∧ counters.binds = []) ∧
        s.settled = true := by
    have hout := hs.outside fun client hclient => by cases hstage.symm.trans hclient
    unfold Monitor.counters at hout
    rw [hstage] at hout
    exact ⟨⟨hout.1, hout.2.1, hout.2.2.1⟩, hout.2.2.2⟩
  cases e with
  | drive e =>
      obtain ⟨drive, hdrive, rfl⟩ := Option.map_eq_some_iff.mp h
      have ho := hs.orderly.step hdrive
      have hpolicy := Drive.policy_of_step hdrive
      cases Drive.moves_of_step hdrive with
      | declined hstage =>
          refine .of_apart ho hstage (hapart hstage).1 ?_
          dsimp only
          rw [hstage]
          rfl
      | forgotten hstage | gone hstage => exact .of_apart ho rfl (hapart hstage).1 rfl
      | failed hstage =>
          refine .of_finish (s := s) ho rfl ?_ rfl
          simp only [closing, Monitor.counters, hstage]
      | started hstage =>
          obtain ⟨⟨hconnected, hservices, hbinds⟩, hsettled⟩ := hapart hstage
          refine ⟨ho, fun client hclient => ?_, fun hout => absurd rfl (hout _)⟩
          cases hclient
          show Client.Shows _ ∅ (s.settled && _)
          rw [hsettled]
          exact Client.Shows.start _ _ _ _ _ hconnected hservices hbinds
      | registered hstage hstep => exact hs.of_session hstage hstep ho hpolicy rfl rfl rfl
      | unregistered hstage hstep => exact hs.of_session hstage hstep ho hpolicy rfl rfl rfl
      | went hstage hcmd hstep =>
          refine hs.of_session hstage hstep ho hpolicy rfl ?_ rfl
          simp only [noted, hstage]
      | ended hstage hphase =>
          refine .of_finish (s := s) ho rfl ?_ rfl
          simp only [closing, Drive.phase?, Monitor.counters, hstage, hphase]
      | stopped hrunning =>
          refine .of_stopped ho rfl ?_ rfl
          simp only [closing]
          split <;> exact finish_clears _ _
  | stopWaiting =>
      simp only [Monitor.step] at h
      split at h
      · rename_i services counters closed hstage
        obtain ⟨drive, hdrive, rfl⟩ := Option.map_eq_some_iff.mp h
        have ho := hs.orderly.step hdrive
        cases Drive.moves_of_step hdrive with
        | stopped hrunning => exact .of_stopped ho rfl (hapart hstage).1 (hapart hstage).2
      · cases h

theorem Truthful.init {c : DriveConfig}
    (hvalid : validateServices c.policy c.services = .ok ()) : Truthful (init c) :=
  .of_apart (Drive.orderly_init hvalid) rfl ⟨rfl, rfl, rfl⟩ rfl

/-- **The client snapshot tells the truth.**  While the loop of a Session waits,
the bind table has one entry for each active Service, of this Session and with
the bind that was acknowledged for it, and `services` counts the active and the
desired Services.  From the end of an attempt until a Session becomes ready,
`connected` and `services` are 0, and every entry is one that the Session under
way has had acknowledged. -/
theorem snapshot_truthful (c : DriveConfig)
    (hvalid : validateServices c.policy c.services = .ok ()) (es : List MonitorEvent)
    (hrun : exec step (init c) es = some s) :
    (∀ client, s.drive.stage = .session client → client.phase = .ready →
      s.counters.connected = 1 ∧
      (s.counters.binds.map (·.service)).Perm client.services.active.keys ∧
      (∀ b ∈ s.counters.binds, b.session = client.sessionId ∧
        s.acks.lookup b.service = some b.bind) ∧
      s.counters.services = client.services.active.size ∧
      s.counters.services = client.services.desired.length) ∧
    (s.settled = true → s.counters.connected = 0 ∧ s.counters.services = 0 ∧
      ∀ b ∈ s.counters.binds, ∃ client, s.drive.stage = .session client ∧
        b.session = client.sessionId ∧ s.acks.lookup b.service = some b.bind) := by
  have hs : Truthful s :=
    exec_inv_of_step (fun _ _ _ hs hstep => hs.step hstep) (Truthful.init hvalid) hrun
  have hcounters {client : Client} (hstage : s.drive.stage = .session client) :
      s.counters = client.counters := by
    unfold Monitor.counters
    rw [hstage]
  constructor
  · intro client hstage hready
    have hshows := hs.session client hstage
    obtain ⟨-, hconnected, hservices, hbinds⟩ := hshows.ready hready
    have hr := hs.orderly.represented
    rw [Drive.services_of_session hstage] at hr
    have hc := hs.orderly.current client hstage hready
    rw [hcounters hstage, ServiceState.size_active hr hc, hbinds]
    exact ⟨hconnected, (ServiceState.keys_active hr hc).symm, hshows.tagged (.inr hready),
      hservices, hservices⟩
  · intro hsettled
    by_cases hsession : ∃ client, s.drive.stage = .session client
    · obtain ⟨client, hstage⟩ := hsession
      have hshows := hs.session client hstage
      obtain ⟨hconnected, hservices⟩ := hshows.quiet hsettled
      rw [hcounters hstage]
      refine ⟨hconnected, hservices, fun b hb => ⟨client, hstage, ?_⟩⟩
      exact hshows.tagged (.inl hsettled) b hb
    · obtain ⟨hconnected, hservices, hbinds, -⟩ := hs.outside (not_exists.mp hsession)
      refine ⟨hconnected, hservices, fun b hb => ?_⟩
      rw [hbinds] at hb
      cases hb

/-- The client after that run. -/
def afterTwoShown : Monitor :=
  (exec step (init Drive.smallDrive) (Drive.twoSessions.map .drive)).get (by decide +kernel)

theorem snapshot_truthful_two_sessions :
    afterTwoShown.drive.phase? = some .ready ∧ afterTwoShown.counters.binds.length = 1 ∧
      ∀ client, afterTwoShown.drive.stage = .session client → client.phase = .ready →
        ∀ b ∈ afterTwoShown.counters.binds, b.session = client.sessionId ∧
          afterTwoShown.acks.lookup b.service = some b.bind :=
  ⟨by decide +kernel, by decide +kernel, fun client hstage hready =>
    ((snapshot_truthful Drive.smallDrive (by decide) (Drive.twoSessions.map .drive)
      (Option.eq_some_of_isSome _)).1 client hstage hready).2.2.1⟩

end Monitor

end Eggtunnel
