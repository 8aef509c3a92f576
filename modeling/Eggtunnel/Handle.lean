/-
Eggtunnel/Handle.lean

`ClientHandle`: what a caller of `register_service` or `unregister_service` is
told.

A call goes through two `select!`s: it sends its command into the bounded queue,
and it waits for the reply; the client's cancellation ends it in either.  The
worker, `drive`, takes commands out of the queue whenever it can, over any
number of Sessions.  The reply channel resolves when the worker uses its sender or
drops it: with the queue or the pending transactions when the worker stops, or on
the way out of a Session.

An invariant says where the command of every call is, and which caller of
the worker's books it became (`Filed`); the books say the rest.
-/
import Eggtunnel.History

namespace Eggtunnel

/-! ### What the worker does to one caller -/

namespace Client

variable {s t : Client} {fx : Effects}

/-- Nobody is gone who has not left. -/
theorem closed_of_step {e : ClientEvent} (h : s.step e = some (t, fx))
    (hstay : ∀ caller, e ≠ .callerGone caller) : t.closed = s.closed := by
  have hpair {r : Client × Effects} (heq : r = (t, fx)) (hr : Fixed s r.1) :
      t.closed = s.closed := by
    rw [heq] at hr
    exact hr.2.2
  cases did_of_step h with
  | cancelRequested | initialReadFailed | readFailed | openJoined => rfl
  | callerGone => exact absurd rfl (hstay _)
  | registerNext _ heq =>
      refine hpair heq ?_
      unfold registerNext
      dsimp only
      split <;> exact ⟨rfl, rfl, rfl⟩
  | initialResponse => exact (fixed_initialResponse s _ _ _).2.2
  | incoming _ heq => exact hpair heq (fixed_onIncoming s _ _)
  | cancelled _ heq | tornDown _ heq => exact hpair heq ⟨rfl, rfl, rfl⟩
  | heartbeatTick =>
      unfold onHeartbeatTick
      split_ifs <;> rfl
  | registrationDeadline _ heq =>
      refine hpair heq ?_
      unfold onDeadline
      split <;> exact ⟨rfl, rfl, rfl⟩
  | outbound _ _ heq =>
      refine hpair heq ?_
      unfold onOutbound
      dsimp only
      split <;> exact ⟨rfl, rfl, rfl⟩
  | register _ heq => exact hpair heq (fixed_onRegister s _ _ _ _)
  | unregister _ heq => exact hpair heq (fixed_onUnregister s _ _ _)
  | openFinished | openDrained => exact (fixed_onOpenFinished s _ _).2.2

/-- A transaction is begun by the registration of its Service. -/
theorem command_of_begin {e : ClientEvent} {service : ClientService} {generation : Nat}
    {caller : CallerId} {closed : Bool} {limit : Nat}
    (h : .begin service generation caller closed limit ∈ s.operations e) :
    ∃ o now, e = .command (.register service caller) o now := by
  have hbranch := s.branch_operations e
  generalize s.operations e = ops at hbranch h
  cases hbranch with
  | begun hrest =>
      rcases hrest with rfl | ⟨deadline, rfl⟩ | rfl | rfl <;> simp at h <;>
        (obtain ⟨rfl, -, rfl, -⟩ := h; exact ⟨_, _, rfl⟩)
  | _ => simp at h

end Client

theorem Operation.begin_of_record {s : ServiceState} {op : Operation} {caller : CallerId}
    {service : ClientService} (h : .begun caller service ∈ op.record s) :
    ∃ generation closed limit, op = .begin service generation caller closed limit := by
  cases op with
  | begin service' generation caller' closed limit =>
      simp only [Operation.record] at h
      split_ifs at h
      · cases h
      · cases h
      · split at h
        · cases List.mem_singleton.mp h
          exact ⟨_, _, _, rfl⟩
        · cases h
  | acknowledge id generation closed bind =>
      simp only [Operation.record] at h
      split at h <;> simp at h
  | _ => simp [Operation.record] at h

namespace Drive

variable {d d' : Drive} {e : DriveEvent} {caller : CallerId}

/-- The supervisor has returned. -/
def isStopped (d : Drive) : Bool :=
  match d.stage with
  | .stopped _ _ => true
  | _ => false

/-- `counters.connected`, which `finish` clears. -/
def connected (d : Drive) : Nat :=
  match d.stage with
  | .apart _ counters _ => counters.connected
  | .session client => client.counters.connected
  | .stopped _ _ => 0

/-- A caller drops its receiver. -/
def gone (d : Drive) (caller : CallerId) : Drive :=
  match d.stage with
  | .apart services counters closed =>
      { d with stage := .apart services counters (caller :: closed) }
  | .session client =>
      { d with stage := .session { client with closed := caller :: client.closed } }
  | .stopped _ _ => d

/-- A departure changes nothing else. -/
structure Left (d d' : Drive) : Prop where
  policy : d'.policy = d.policy
  books : d'.books = d.books
  nextCaller : d'.nextCaller = d.nextCaller
  isStopped : d'.isStopped = d.isStopped

theorem left_gone (d : Drive) (caller : CallerId) : Left d (d.gone caller) := by
  obtain ⟨policy, stage, nextCaller, answered, history⟩ := d
  cases stage <;> exact ⟨rfl, rfl, rfl, rfl⟩

theorem mem_closed_gone {k : CallerId} (h : k ∈ (d.gone caller).closed) :
    k = caller ∨ k ∈ d.closed := by
  obtain ⟨policy, stage, nextCaller, answered, history⟩ := d
  cases stage with
  | apart services counters closed => exact List.mem_cons.mp h
  | session client => exact List.mem_cons.mp h
  | stopped services closed => exact .inr h

theorem closed_subset_gone : d.closed ⊆ (d.gone caller).closed := by
  obtain ⟨policy, stage, nextCaller, answered, history⟩ := d
  cases stage with
  | apart services counters closed => exact List.subset_cons_self _ _
  | session client => exact List.subset_cons_self _ _
  | stopped services closed => exact List.Subset.refl _

theorem Settled.gone (hs : Settled d) (caller : CallerId) : Settled (d.gone caller) := by
  have hleft := d.left_gone caller
  refine ⟨?_, ?_, ?_⟩
  · rw [hleft.books]
    exact hs.accounted.mono closed_subset_gone
  · rw [show (d.gone caller).services = d.services from congrArg Books.services hleft.books]
    exact hs.keyed
  · rw [hleft.books, hleft.nextCaller]
    exact hs.known

/-- A caller leaves. -/
def departs : DriveEvent → Bool
  | .callerGone _ | .client (.callerGone _) => true
  | _ => false

theorem closed_eq_of_step (h : d.step e = some d') (hstay : departs e = false) :
    d'.closed = d.closed := by
  obtain ⟨policy, stage, nextCaller, answered, history⟩ := d
  have hfinish {d : Drive} (result : Except TunnelError Unit) (services : ServiceState)
      (counters : Counters) (closed : List CallerId) :
      (d.finish result services counters closed).closed = closed := by
    unfold finish
    split <;> rfl
  cases moves_of_step h with
  | declined hstage | forgotten hstage =>
      cases hstage
      rfl
  | gone hstage => cases hstay
  | failed hstage | ended hstage =>
      cases hstage
      exact hfinish _ _ _ _
  | started hstage =>
      cases hstage
      exact closed_start _ _ _ _ _ _
  | registered hstage hstep | unregistered hstage hstep =>
      cases hstage
      exact Client.closed_of_step hstep (by simp)
  | @went c ce r hstage hcmd hstep =>
      cases hstage
      refine Client.closed_of_step hstep ?_
      rintro caller rfl
      cases hstay
  | stopped hrunning => rfl

theorem running_of_step (h : d.step e = some d') : d.isStopped = false := by
  obtain ⟨policy, stage, nextCaller, answered, history⟩ := d
  cases stage with
  | stopped services closed => cases e <;> cases h
  | _ => rfl

theorem mem_answered_of_step (h : d.step e = some d') {a : Answer} (ha : a ∈ d.answered) :
    a ∈ d'.answered := by
  have hrun : exec step d [e] = some d' := by
    rw [exec_cons, h]
    rfl
  exact answered_of_run ha hrun

theorem mem_history_of_step (hs : Settled d) (h : d.step e = some d') {r : Record}
    (hr : r ∈ d.history) : r ∈ d'.history := by
  obtain ⟨records, hrecords⟩ := hs.remembered h
  rw [hrecords.history]
  exact List.mem_append_left _ hr

/-- A transaction is begun for the caller of the registration. -/
theorem begun_of_step {service : ClientService} (h : d.step e = some d')
    (hbegun : .begun caller service ∈ d'.history) :
    .begun caller service ∈ d.history ∨
      caller = d.nextCaller ∧ ∃ o now, e = .register service o now := by
  rw [show d'.history = _ from congrArg Books.history (step_books h)] at hbegun
  refine (Books.mem_history_run hbegun).imp_right ?_
  rintro ⟨op, hop, u, hrecord⟩
  obtain ⟨generation, closed, limit, rfl⟩ := Operation.begin_of_record hrecord
  cases moves_of_step h with
  | declined hstage => simp [operations, hstage] at hop
  | forgotten hstage => simp [operations, hstage] at hop
  | started hstage =>
      simp only [operations, hstage] at hop
      split_ifs at hop <;> simp at hop
  | registered hstage =>
      simp only [operations, hstage] at hop
      obtain ⟨o, now, heq⟩ := Client.command_of_begin hop
      cases heq
      exact ⟨rfl, _, _, rfl⟩
  | unregistered hstage =>
      simp only [operations, hstage] at hop
      obtain ⟨o, now, heq⟩ := Client.command_of_begin hop
      cases heq
  | went hstage hcmd =>
      simp only [operations, hstage] at hop
      obtain ⟨o, now, rfl⟩ := Client.command_of_begin hop
      cases hcmd
  | gone | failed | ended | stopped => simp [operations] at hop

/-- The registration of the caller has failed for good: it was told so, or it never
was begun, or the worker is gone. -/
def Refused (d : Drive) (caller : CallerId) : Prop :=
  (∃ error, (caller, .error error) ∈ d.answered) ∨
  (caller < d.nextCaller ∧ ∀ service, .begun caller service ∉ d.history) ∨
  (d.isStopped = true ∧ ∀ service, .committed (some caller) service ∉ d.history)

/-- A refusal is final. -/
theorem Refused.step (hr : Refused d caller) (h : d.step e = some d') : Refused d' caller := by
  rcases hr with ⟨error, herror⟩ | ⟨hold, hnever⟩ | ⟨hstopped, -⟩
  · exact .inl ⟨error, mem_answered_of_step h herror⟩
  · refine .inr (.inl ⟨hold.trans_le (newcomers_of_step h).1, fun service hbegun => ?_⟩)
    rcases begun_of_step h hbegun with hbefore | ⟨rfl, -⟩
    · exact hnever service hbefore
    · exact lt_irrefl _ hold
  · rw [running_of_step h] at hstopped
    cases hstopped

theorem Refused.left (hr : Refused d caller) (hleft : Left d d') : Refused d' caller := by
  have hanswered : d'.answered = d.answered := congrArg Books.answered hleft.books
  have hhistory : d'.history = d.history := congrArg Books.history hleft.books
  unfold Refused
  rw [hanswered, hhistory, hleft.nextCaller, hleft.isStopped]
  exact hr

/-- What a caller can rely on while the worker goes on. -/
structure Onward (d d' : Drive) : Prop where
  answered : ∀ a ∈ d.answered, a ∈ d'.answered
  history : ∀ r ∈ d.history, r ∈ d'.history
  nextCaller : d.nextCaller ≤ d'.nextCaller
  begun : ∀ caller service, .begun caller service ∈ d'.history →
    .begun caller service ∈ d.history ∨ d.nextCaller ≤ caller
  refused : ∀ caller, Refused d caller → Refused d' caller
  stopped : d.isStopped = true → d'.isStopped = true

theorem onward_of_step (hs : Settled d) (h : d.step e = some d') : Onward d d' where
  answered _ ha := mem_answered_of_step h ha
  history _ hr := mem_history_of_step hs h hr
  nextCaller := (newcomers_of_step h).1
  begun _ _ hbegun := (begun_of_step h hbegun).imp_right fun hnew => hnew.1.ge
  refused _ hr := hr.step h
  stopped hstopped := by
    rw [running_of_step h] at hstopped
    cases hstopped

theorem Left.onward (h : Left d d') : Onward d d' := by
  have hanswered : d'.answered = d.answered := congrArg Books.answered h.books
  have hhistory : d'.history = d.history := congrArg Books.history h.books
  refine ⟨fun _ ha => hanswered ▸ ha, fun _ hr => hhistory ▸ hr, h.nextCaller.ge,
    fun _ _ hbegun => .inl (hhistory ▸ hbegun), fun _ hr => hr.left h, fun hs => ?_⟩
  rw [h.isStopped, hs]

theorem Onward.refl (d : Drive) : Onward d d :=
  Left.onward ⟨rfl, rfl, rfl, rfl⟩

theorem Onward.trans {d'' : Drive} (h : Onward d d') (h' : Onward d' d'') : Onward d d'' where
  answered a ha := h'.answered a (h.answered a ha)
  history r hr := h'.history r (h.history r hr)
  nextCaller := h.nextCaller.trans h'.nextCaller
  begun caller service hbegun := by
    rcases h'.begun caller service hbegun with hmid | hlate
    · exact h.begun caller service hmid
    · exact .inr (h.nextCaller.trans hlate)
  refused caller hr := h'.refused caller (h.refused caller hr)
  stopped hs := h'.stopped (h.stopped hs)

end Drive

/-! ### Calls -/

/-- What a call asks the worker for. -/
inductive Ask
  | register (service : ClientService)
  | unregister (id : ServiceId)
  deriving DecidableEq

/-- What a call comes to. -/
inductive CallEnd
  | bound (bind : EffectiveBind)
  | removed
  | failed (error : TunnelError)
  /-- its future is dropped -/
  | dropped
  deriving DecidableEq

/-- Where a call of a handle is. -/
inductive CallStage
  /-- the first `select!`, with `commands.send` -/
  | sending
  /-- the second `select!`, with the response -/
  | waiting
  | ended (result : CallEnd)
  deriving DecidableEq

/-- One call; `caller` is its name in the worker's books, once its command is
taken. -/
structure Call where
  ask : Ask
  stage : CallStage
  caller : Option CallerId
  deriving DecidableEq

/-- The handles of a client with their calls, the command queue and the worker.
`removed` are the callers whose `unregister_service` the worker has answered. -/
structure Handle where
  drive : Drive
  cancelled : Bool
  calls : Table Nat Call
  queue : List Nat
  removed : List CallerId

/-- What can happen between handles and supervisor. -/
inductive HandleEvent
  | call (id : Nat) (ask : Ask)
  /-- `commands.send` completes -/
  | send (id : Nat)
  /-- the worker takes the next command -/
  | take (o : WriteOutcome) (now : Instant)
  /-- the response resolves -/
  | receive (id : Nat)
  /-- the `cancelled` branch of either `select!` -/
  | cancelled (id : Nat)
  /-- the future of a call is dropped -/
  | drop (id : Nat)
  | shutdown
  /-- anything else the worker does -/
  | worker (e : DriveEvent)

/-- The command as the supervisor takes it. -/
def Ask.event (ask : Ask) (o : WriteOutcome) (now : Instant) : DriveEvent :=
  match ask with
  | .register service => .register service o now
  | .unregister id => .unregister id o now

namespace Handle

/-- Nobody has called yet. -/
def init (c : DriveConfig) : Handle where
  drive := .init c
  cancelled := false
  calls := ∅
  queue := []
  removed := []

/-- Only `register_service` looks whether the client is connected. -/
def opening (s : Handle) : Ask → CallStage
  | .register _ => if s.drive.connected = 0 then .ended (.failed .disconnected) else .sending
  | .unregister _ => .sending

/-- A call ends, and drops its receiver. -/
def finish (s : Handle) (id : Nat) (call : Call) (result : CallEnd) : Handle :=
  { s with
    drive := match call.caller with
      | some caller => s.drive.gone caller
      | none => s.drive
    calls := s.calls.insert id { call with stage := .ended result } }

/-- The command of an unregistration is answered: always between Sessions, and in
one unless the write that it needs ends the Session. -/
def answers (d : Drive) (ask : Ask) (o : WriteOutcome) (now : Instant) : Bool :=
  match ask, d.stage with
  | .unregister _, .apart _ _ _ => true
  | .unregister id, .session c =>
      match c.step (.command (.unregister id d.nextCaller) o now) with
      | some (_, fx) => fx.unregistered.contains d.nextCaller
      | none => false
  | _, _ => false

/-- What the response resolves to, once its sender is used or dropped. -/
def response (s : Handle) (call : Call) : Option CallEnd :=
  match call.caller, call.ask with
  | none, _ => if s.drive.isStopped then some (.failed .disconnected) else none
  | some caller, .unregister _ =>
      if s.removed.contains caller then some .removed else some (.failed .disconnected)
  | some caller, .register _ =>
      match s.drive.answered.find? (·.1 = caller) with
      | some (_, .ok bind) => some (.bound bind)
      | some (_, .error error) => some (.failed error)
      | none =>
          if s.drive.services.callers.contains caller && !s.drive.isStopped then none
          else some (.failed .disconnected)

/-- The worker as the command of a call finds it: the receiver of one that has
ended is gone. -/
def facing (s : Handle) (call : Call) : Drive :=
  match call.stage with
  | .ended _ => s.drive.gone s.drive.nextCaller
  | _ => s.drive

/-- The worker takes a command. -/
def take (s : Handle) (id : Nat) (queue : List Nat) (call : Call) (o : WriteOutcome)
    (now : Instant) : Option Handle :=
  let caller := s.drive.nextCaller
  ((s.facing call).step (call.ask.event o now)).map fun drive =>
    { s with
      drive
      calls := s.calls.insert id { call with caller := some caller }
      queue
      removed := if answers (s.facing call) call.ask o now then caller :: s.removed
        else s.removed }

/-- What the worker does without the handles: it takes its commands out of the
queue, sees nobody off, and stops when it is told to. -/
def allowed (s : Handle) : DriveEvent → Bool
  | .register _ _ _ | .unregister _ _ _ | .callerGone _ | .client (.callerGone _) => false
  | .client .cancelRequested | .stop => s.cancelled
  | _ => true

/-- One move of a caller or of the supervisor. -/
def step (s : Handle) : HandleEvent → Option Handle
  | .call id ask =>
      match s.calls.lookup id with
      | some _ => none
      | none => some { s with calls := s.calls.insert id ⟨ask, s.opening ask, none⟩ }
  | .send id =>
      match s.calls.lookup id with
      | some call =>
          if call.stage = .sending then
            if s.drive.isStopped then some (s.finish id call (.failed .disconnected))
            else if s.queue.length < s.drive.policy.limits.clientCommandQueue then
              some { s with
                calls := s.calls.insert id { call with stage := .waiting }
                queue := s.queue ++ [id] }
            else none
          else none
      | none => none
  | .take o now =>
      match s.queue with
      | id :: queue =>
          match s.calls.lookup id with
          | some call => s.take id queue call o now
          | none => none
      | [] => none
  | .receive id =>
      match s.calls.lookup id with
      | some call =>
          if call.stage = .waiting then (s.response call).map (s.finish id call) else none
      | none => none
  | .cancelled id =>
      match s.calls.lookup id with
      | some call =>
          if (call.stage = .sending ∨ call.stage = .waiting) ∧ s.cancelled then
            some (s.finish id call (.failed .cancelled))
          else none
      | none => none
  | .drop id =>
      match s.calls.lookup id with
      | some call =>
          if call.stage = .sending ∨ call.stage = .waiting then some (s.finish id call .dropped)
          else none
      | none => none
  | .shutdown => some { s with cancelled := true }
  | .worker e =>
      if s.allowed e then (s.drive.step e).map fun drive => { s with drive } else none

variable {s t : Handle} {id : Nat} {call : Call}

/-! ### Where every command is -/

/-- What a call may be told. -/
def Truth (s : Handle) (id : Nat) (call : Call) : CallEnd → Prop
  | .bound bind => ∃ service caller, call.ask = .register service ∧ call.caller = some caller ∧
      (caller, .ok bind) ∈ s.drive.answered ∧ .committed (some caller) service ∈ s.drive.history
  | .removed => ∃ sid, call.ask = .unregister sid ∧ .unregistered sid ∈ s.drive.history
  | .failed error => error ≠ .cancelled →
      (call.caller = none → id ∉ s.queue ∨ s.drive.isStopped = true) ∧
        ∀ caller, call.caller = some caller → s.drive.Refused caller
  | .dropped => True

/-- One call and its command. -/
structure CallFiled (s : Handle) (id : Nat) (call : Call) : Prop where
  sending : call.stage = .sending → call.caller = none
  waiting : call.stage = .waiting → call.caller = none → id ∈ s.queue
  known : ∀ caller, call.caller = some caller → caller < s.drive.nextCaller
  /-- the receiver of a call that waits is there -/
  here : call.stage = .waiting → ∀ caller, call.caller = some caller → caller ∉ s.drive.closed
  begun : ∀ caller service, call.caller = some caller →
    .begun caller service ∈ s.drive.history → call.ask = .register service
  unregistered : ∀ caller sid, call.caller = some caller → call.ask = .unregister sid →
    .unregistered sid ∈ s.drive.history
  truth : ∀ result, call.stage = .ended result → Truth s id call result

/-- Every call knows its own caller, and nobody else's. -/
structure Filed (s : Handle) : Prop where
  settled : s.drive.Settled
  distinct : s.queue.Nodup
  queued : ∀ id ∈ s.queue, ∃ call, s.calls.lookup id = some call ∧ call.caller = none ∧
    call.stage ≠ .sending
  closed : ∀ caller ∈ s.drive.closed, caller < s.drive.nextCaller
  own : ∀ id id' call call' caller, s.calls.lookup id = some call →
    s.calls.lookup id' = some call' → call.caller = some caller → call'.caller = some caller →
    id = id'
  calls : ∀ id call, s.calls.lookup id = some call → CallFiled s id call

theorem Truth.mono {result : CallEnd} (h : Truth s id call result)
    (hdrive : s.drive.Onward t.drive) (hqueue : id ∈ t.queue → id ∈ s.queue) :
    Truth t id call result := by
  cases result with
  | bound bind =>
      obtain ⟨service, caller, hask, hcaller, hok, hcommitted⟩ := h
      exact ⟨service, caller, hask, hcaller, hdrive.answered _ hok, hdrive.history _ hcommitted⟩
  | removed =>
      obtain ⟨sid, hask, hrecord⟩ := h
      exact ⟨sid, hask, hdrive.history _ hrecord⟩
  | failed error =>
      intro hne
      obtain ⟨hnone, hrefused⟩ := h hne
      refine ⟨fun hcaller => ?_, fun caller hcaller => hdrive.refused _ (hrefused caller hcaller)⟩
      exact (hnone hcaller).imp (fun hout hin => hout (hqueue hin)) hdrive.stopped
  | dropped => trivial

/-- A call that a step leaves alone. -/
theorem CallFiled.mono (h : CallFiled s id call) (hdrive : s.drive.Onward t.drive)
    (hqueue : id ∈ t.queue ↔ id ∈ s.queue)
    (hhere : ∀ caller, call.caller = some caller → caller ∉ s.drive.closed →
      caller ∉ t.drive.closed) : CallFiled t id call where
  sending := h.sending
  waiting hstage hnone := hqueue.mpr (h.waiting hstage hnone)
  known caller hcaller := (h.known caller hcaller).trans_le hdrive.nextCaller
  here hstage caller hcaller := hhere caller hcaller (h.here hstage caller hcaller)
  begun caller service hcaller hbegun := by
    rcases hdrive.begun caller service hbegun with hbefore | hlate
    · exact h.begun caller service hcaller hbefore
    · exact absurd (h.known caller hcaller) (Nat.not_lt.mpr hlate)
  unregistered caller sid hcaller hask := hdrive.history _ (h.unregistered caller sid hcaller hask)
  truth result hstage := (h.truth result hstage).mono hdrive hqueue.mp

/-- **What the response says is so.** -/
theorem truth_of_response (hs : Filed s) (hcall : s.calls.lookup id = some call)
    (hstage : call.stage = .waiting) {result : CallEnd} (h : s.response call = some result) :
    Truth s id call result := by
  have hf := hs.calls id call hcall
  unfold response at h
  split at h
  · rename_i hnone
    split_ifs at h with hstopped
    obtain rfl := Option.some.inj h
    refine fun _ => ⟨fun _ => .inr hstopped, fun caller hcaller => ?_⟩
    rw [hnone] at hcaller
    cases hcaller
  · rename_i caller sid hcaller hask
    split_ifs at h
    · obtain rfl := Option.some.inj h
      exact ⟨sid, hask, hf.unregistered caller sid hcaller hask⟩
    · obtain rfl := Option.some.inj h
      refine fun _ => ⟨fun hnone => ?_,
        fun k hk => .inr (.inl ⟨hf.known k hk, fun service hb => ?_⟩)⟩
      · rw [hcaller] at hnone
        cases hnone
      · have := hf.begun k service hk hb
        rw [hask] at this
        cases this
  · rename_i caller service hcaller hask
    have hfailed {error : TunnelError} (hr : s.drive.Refused caller) :
        Truth s id call (.failed error) := by
      refine fun _ => ⟨fun hnone => ?_, fun k hk => ?_⟩
      · rw [hcaller] at hnone
        cases hnone
      · obtain rfl := Option.some.inj (hcaller.symm.trans hk)
        exact hr
    split at h
    · rename_i k bind hfind
      obtain rfl := Option.some.inj h
      have hk : k = caller := by simpa using List.find?_some hfind
      subst hk
      have hok := List.mem_of_find?_eq_some hfind
      obtain ⟨service', hcommitted⟩ := hs.settled.accounted.ok _ _ hok
      obtain ⟨k', bind', heq, hbegun, -⟩ := hs.settled.accounted.committed _ _ hcommitted
      cases heq
      exact ⟨service', k, hf.begun k service' hcaller hbegun, hcaller, hok, hcommitted⟩
    · rename_i k error hfind
      obtain rfl := Option.some.inj h
      have hk : k = caller := by simpa using List.find?_some hfind
      subst hk
      exact hfailed (.inl ⟨error, List.mem_of_find?_eq_some hfind⟩)
    · rename_i hfind
      split_ifs at h with hpending
      obtain rfl := Option.some.inj h
      have hanswered : caller ∉ s.drive.answered.map Prod.fst := by
        intro hmem
        obtain ⟨a, ha, rfl⟩ := List.mem_map.mp hmem
        have := List.find?_eq_none.mp hfind a ha
        simp at this
      apply hfailed
      -- the sender was dropped: with the worker, or before a transaction was begun
      by_cases hstopped : s.drive.isStopped = true
      · refine .inr (.inr ⟨hstopped, fun service' hcommitted => ?_⟩)
        obtain ⟨k, bind, heq, -, hok⟩ := hs.settled.accounted.committed _ _ hcommitted
        cases heq
        exact hanswered (List.mem_map_of_mem hok)
      · refine .inr (.inl ⟨hf.known caller hcaller, fun service' hbegun => ?_⟩)
        rcases hs.settled.accounted.begun _ _ hbegun with ⟨txn, hmem, hreply, -⟩ | hans | hgone
        · have hin : caller ∈ s.drive.services.callers :=
            ServiceState.mem_callers.mpr ⟨txn, hmem, hreply⟩
          simp [hin, hstopped] at hpending
        · exact hanswered hans
        · exact hf.here hstage caller hcaller hgone

/-- A step that changes one call. -/
theorem Filed.put {call' : Call} (hs : Filed s) (hcalls : t.calls = s.calls.insert id call')
    (hsettled : t.drive.Settled) (hdrive : s.drive.Onward t.drive) (hdistinct : t.queue.Nodup)
    (hqueue : ∀ id', id' ≠ id → (id' ∈ t.queue ↔ id' ∈ s.queue))
    (hqueued : id ∈ t.queue → call'.caller = none ∧ call'.stage ≠ .sending)
    (hclosed : ∀ caller ∈ t.drive.closed, caller < t.drive.nextCaller)
    (hothers : ∀ id' other caller, id' ≠ id → s.calls.lookup id' = some other →
      other.caller = some caller → call'.caller ≠ some caller ∧
        (caller ∉ s.drive.closed → caller ∉ t.drive.closed))
    (hfiled : CallFiled t id call') : Filed t := by
  have hlook (id' : Nat) : t.calls.lookup id' = if id' = id then some call'
      else s.calls.lookup id' := by
    rw [hcalls]
    exact Table.lookup_insert_eq id' id call' s.calls
  refine ⟨hsettled, hdistinct, fun id' hmem => ?_, hclosed, ?_, fun id' other hother => ?_⟩
  · rw [hlook]
    by_cases hid : id' = id
    · subst hid
      exact ⟨call', if_pos rfl, hqueued hmem⟩
    · rw [if_neg hid]
      exact hs.queued id' ((hqueue id' hid).mp hmem)
  · intro id₁ id₂ call₁ call₂ caller h₁ h₂ hc₁ hc₂
    rw [hlook] at h₁ h₂
    split_ifs at h₁ h₂ with hid₁ hid₂ hid₂
    · rw [hid₁, hid₂]
    · obtain rfl := Option.some.inj h₁
      exact absurd hc₁ (hothers id₂ call₂ caller hid₂ h₂ hc₂).1
    · obtain rfl := Option.some.inj h₂
      exact absurd hc₂ (hothers id₁ call₁ caller hid₁ h₁ hc₁).1
    · exact hs.own id₁ id₂ call₁ call₂ caller h₁ h₂ hc₁ hc₂
  · rw [hlook] at hother
    split_ifs at hother with hid
    · subst hid
      obtain rfl := Option.some.inj hother
      exact hfiled
    · exact (hs.calls id' other hother).mono hdrive (hqueue id' hid)
        fun caller hcaller => (hothers id' other caller hid hother hcaller).2

/-- A call ends. -/
theorem Filed.finish (hs : Filed s) (hcall : s.calls.lookup id = some call) {result : CallEnd}
    (htruth : Truth s id call result) : Filed (s.finish id call result) := by
  have hf := hs.calls id call hcall
  have hleft : s.drive.Left (s.finish id call result).drive := by
    unfold Handle.finish
    cases call.caller with
    | none => exact ⟨rfl, rfl, rfl, rfl⟩
    | some caller => exact s.drive.left_gone caller
  have hclosed {k : CallerId} (hk : k ∈ (s.finish id call result).drive.closed) :
      call.caller = some k ∨ k ∈ s.drive.closed := by
    unfold Handle.finish at hk
    cases hcaller : call.caller with
    | none =>
        rw [hcaller] at hk
        exact .inr hk
    | some caller =>
        rw [hcaller] at hk
        exact (Drive.mem_closed_gone hk).imp_left fun heq => by rw [heq]
  have hsettled : (s.finish id call result).drive.Settled := by
    unfold Handle.finish
    cases call.caller with
    | none => exact hs.settled
    | some caller => exact hs.settled.gone caller
  refine hs.put rfl hsettled hleft.onward hs.distinct (fun _ _ => Iff.rfl) (fun hmem => ?_)
    (fun k hk => ?_) (fun id' other caller hid hother hcaller => ⟨fun hsame => ?_, ?_⟩) ?_
  · obtain ⟨call', hcall', hnone, -⟩ := hs.queued id hmem
    obtain rfl := Option.some.inj (hcall.symm.trans hcall')
    exact ⟨hnone, by simp⟩
  · rw [hleft.nextCaller]
    exact (hclosed hk).elim (hf.known k) (hs.closed k)
  · exact hid (hs.own id' id other call caller hother hcall hcaller hsame)
  · intro hout hin
    rcases hclosed hin with hsame | hin
    · exact hid (hs.own id' id other call caller hother hcall hcaller hsame)
    · exact hout hin
  · refine ⟨by simp, by simp, fun k hk => ?_, by simp, fun k service hk hb => ?_,
      fun k sid hk hask => hleft.onward.history _ (hf.unregistered k sid hk hask), ?_⟩
    · rw [hleft.nextCaller]
      exact hf.known k hk
    · rw [show (s.finish id call result).drive.history = s.drive.history from
        congrArg Books.history hleft.books] at hb
      exact hf.begun k service hk hb
    · rintro result' hstage
      cases hstage
      have := htruth.mono (t := s.finish id call result) hleft.onward fun hin => hin
      cases result <;> exact this

/-- A command is the next caller's. -/
theorem nextCaller_of_event {d d' : Drive} {ask : Ask} {o : WriteOutcome} {now : Instant}
    (h : d.step (ask.event o now) = some d') : d'.nextCaller = d.nextCaller + 1 := by
  cases ask with
  | register service => cases Drive.moves_of_step h <;> rfl
  | unregister id => cases Drive.moves_of_step h <;> rfl

theorem departs_event (ask : Ask) (o : WriteOutcome) (now : Instant) :
    Drive.departs (ask.event o now) = false := by
  cases ask <;> rfl

theorem left_facing (s : Handle) (call : Call) : s.drive.Left (s.facing call) := by
  unfold facing
  split
  · exact s.drive.left_gone _
  · exact ⟨rfl, rfl, rfl, rfl⟩

theorem settled_facing (hs : s.drive.Settled) (call : Call) : (s.facing call).Settled := by
  unfold facing
  split
  · exact hs.gone _
  · exact hs

theorem mem_closed_facing {k : CallerId} (h : k ∈ (s.facing call).closed) :
    (k = s.drive.nextCaller ∧ call.stage ≠ .waiting) ∨ k ∈ s.drive.closed := by
  unfold facing at h
  split at h
  · rename_i hstage
    exact (Drive.mem_closed_gone h).imp_left fun heq => ⟨heq, by rw [hstage]; simp⟩
  · exact .inr h

/-- The worker takes a command. -/
theorem Filed.take (hs : Filed s) {queue : List Nat} (hqueue : s.queue = id :: queue)
    (hcall : s.calls.lookup id = some call) {o : WriteOutcome} {now : Instant}
    (h : s.take id queue call o now = some t) : Filed t := by
  have hf := hs.calls id call hcall
  obtain ⟨hnone, hsent⟩ : call.caller = none ∧ call.stage ≠ .sending := by
    obtain ⟨call', hcall', hrest⟩ := hs.queued id (hqueue ▸ List.mem_cons_self)
    obtain rfl := Option.some.inj (hcall.symm.trans hcall')
    exact hrest
  obtain ⟨hnot, hdistinct⟩ := List.nodup_cons.mp (hqueue ▸ hs.distinct)
  obtain ⟨d, hstep, rfl⟩ := Option.map_eq_some_iff.mp h
  have hleft := s.left_facing call
  have hfacing := settled_facing hs.settled call
  have hdrive := hleft.onward.trans (Drive.onward_of_step hfacing hstep)
  have hnext : d.nextCaller = s.drive.nextCaller + 1 := by
    rw [nextCaller_of_event hstep, hleft.nextCaller]
  have hclosed : d.closed = (s.facing call).closed :=
    Drive.closed_eq_of_step hstep (departs_event _ _ _)
  refine hs.put rfl (hfacing.step hstep) hdrive hdistinct (fun id' hid => ?_)
    (fun hmem => absurd hmem hnot) (fun k hk => ?_)
    (fun id' other caller hid hother hcaller => ⟨fun hsame => ?_, fun hout hin => ?_⟩) ?_
  · rw [hqueue]
    simp [hid]
  · rw [show _ = _ from hclosed] at hk
    rw [show _ = _ from hnext]
    rcases mem_closed_facing hk with ⟨rfl, -⟩ | hold
    · exact Nat.lt_succ_self _
    · exact (hs.closed k hold).trans (Nat.lt_succ_self _)
  · have hold := (hs.calls id' other hother).known caller hcaller
    cases hsame
    exact lt_irrefl _ hold
  · rw [show _ = _ from hclosed] at hin
    rcases mem_closed_facing hin with ⟨rfl, -⟩ | hold
    · exact lt_irrefl _ ((hs.calls id' other hother).known _ hcaller)
    · exact hout hold
  · refine ⟨fun hstage => absurd hstage hsent, by simp, fun k hk => ?_,
      fun hstage k hk hin => ?_, fun k service hk hbegun => ?_, fun k sid hk hask => ?_,
      fun result hstage => ?_⟩
    · cases hk
      rw [show _ = _ from hnext]
      exact Nat.lt_succ_self _
    · cases hk
      rw [show _ = _ from hclosed] at hin
      rcases mem_closed_facing hin with ⟨-, hne⟩ | hold
      · exact hne hstage
      · exact lt_irrefl _ (hs.closed _ hold)
    · -- the caller is new, so the transaction was begun just now
      cases hk
      rcases Drive.begun_of_step hstep hbegun with hbefore | ⟨-, o', now', heq⟩
      · have hknown := hfacing.known s.drive.nextCaller (.inr (.inr ⟨service, hbefore⟩))
        rw [hleft.nextCaller] at hknown
        exact absurd hknown (lt_irrefl _)
      · cases hask : call.ask with
        | register service' =>
            rw [hask] at heq
            cases heq
            rfl
        | unregister sid =>
            rw [hask] at heq
            cases heq
    · obtain ⟨records, hrecords⟩ := hfacing.remembered hstep
      rw [show d.history = _ from hrecords.history]
      refine List.mem_append_right _ ((hrecords.unregistered sid).mpr ⟨o, now, ?_⟩)
      rw [show call.ask = .unregister sid from hask]
      rfl
    · have htruth := hf.truth result hstage
      cases result with
      | bound bind =>
          obtain ⟨service, caller, -, hcaller, -⟩ := htruth
          rw [hnone] at hcaller
          cases hcaller
      | removed =>
          obtain ⟨sid, hask, hrecord⟩ := htruth
          exact ⟨sid, hask, hdrive.history _ hrecord⟩
      | failed error =>
          intro hne
          rcases (htruth hne).1 hnone with hout | hstopped
          · exact absurd (hqueue ▸ List.mem_cons_self) hout
          · rw [← hleft.isStopped, Drive.running_of_step hstep] at hstopped
            cases hstopped
      | dropped => trivial

theorem Filed.init (c : DriveConfig) : Filed (init c) where
  settled := Drive.settled_init c
  distinct := List.nodup_nil
  queued _ h := by cases h
  closed _ h := by cases h
  own _ _ _ _ _ h := by cases h
  calls _ _ h := by cases h

theorem departs_of_allowed {e : DriveEvent} (h : s.allowed e = true) :
    Drive.departs e = false := by
  cases e with
  | callerGone caller => cases h
  | client e =>
      cases e with
      | callerGone caller => cases h
      | _ => rfl
  | _ => rfl

/-- **One step keeps the files.** -/
theorem Filed.step (hs : Filed s) {e : HandleEvent} (h : s.step e = some t) : Filed t := by
  cases e with
  | call id ask =>
      simp only [Handle.step] at h
      split at h
      · cases h
      · rename_i hfresh
        obtain rfl := Option.some.inj h
        have hout : id ∉ s.queue := by
          intro hmem
          obtain ⟨call, hcall, -⟩ := hs.queued id hmem
          rw [hfresh] at hcall
          cases hcall
        refine hs.put rfl hs.settled (.refl _) hs.distinct (fun _ _ => Iff.rfl)
          (fun hmem => absurd hmem hout) hs.closed
          (fun _ _ _ _ _ _ => ⟨by simp, fun hno => hno⟩) ?_
        refine ⟨by simp, fun hstage => ?_, by simp, by simp, by simp, by simp,
          fun result hstage => ?_⟩
        · cases ask with
          | register service =>
              simp only [opening] at hstage
              split_ifs at hstage
          | unregister sid => cases hstage
        · cases ask with
          | register service =>
              simp only [opening] at hstage
              split_ifs at hstage
              cases hstage
              exact fun _ => ⟨fun _ => .inl hout, by simp⟩
          | unregister sid => cases hstage
  | send id =>
      simp only [Handle.step] at h
      split at h
      · rename_i call hcall
        have hf := hs.calls id call hcall
        split_ifs at h with hstage hstopped hroom
        · obtain rfl := Option.some.inj h
          refine hs.finish hcall fun _ => ⟨fun _ => .inr hstopped, fun caller hcaller => ?_⟩
          rw [hf.sending hstage] at hcaller
          cases hcaller
        · obtain rfl := Option.some.inj h
          have hout : id ∉ s.queue := by
            intro hmem
            obtain ⟨call', hcall', -, hne⟩ := hs.queued id hmem
            obtain rfl := Option.some.inj (hcall.symm.trans hcall')
            exact hne hstage
          have hnone := hf.sending hstage
          refine hs.put rfl hs.settled (.refl _) ?_ (fun id' hid => by simp [hid])
            (fun _ => ⟨hnone, by simp⟩) hs.closed
            (fun _ _ _ _ _ _ => ⟨by simp [hnone], fun hno => hno⟩) ?_
          · exact List.nodup_append.mpr ⟨hs.distinct, List.nodup_singleton _, fun a ha b hb => by
              rw [List.mem_singleton.mp hb]
              rintro rfl
              exact hout ha⟩
          · exact ⟨by simp, by simp, by simp [hnone], by simp [hnone], by simp [hnone],
              by simp [hnone], by simp⟩
      · cases h
  | take o now =>
      simp only [Handle.step] at h
      split at h
      · rename_i id queue hqueue
        split at h
        · rename_i call hcall
          exact hs.take hqueue hcall h
        · cases h
      · cases h
  | receive id =>
      simp only [Handle.step] at h
      split at h
      · rename_i call hcall
        split_ifs at h with hstage
        obtain ⟨result, hresult, rfl⟩ := Option.map_eq_some_iff.mp h
        exact hs.finish hcall (truth_of_response hs hcall hstage hresult)
      · cases h
  | cancelled id =>
      simp only [Handle.step] at h
      split at h
      · rename_i call hcall
        split_ifs at h
        obtain rfl := Option.some.inj h
        exact hs.finish hcall fun hne => absurd rfl hne
      · cases h
  | drop id =>
      simp only [Handle.step] at h
      split at h
      · rename_i call hcall
        split_ifs at h
        obtain rfl := Option.some.inj h
        exact hs.finish hcall trivial
      · cases h
  | shutdown =>
      obtain rfl := Option.some.inj h
      exact ⟨hs.settled, hs.distinct, hs.queued, hs.closed, hs.own,
        fun id call hcall => (hs.calls id call hcall).mono (.refl _) Iff.rfl fun _ _ hno => hno⟩
  | worker e =>
      simp only [Handle.step] at h
      split_ifs at h with hallowed
      obtain ⟨d, hstep, rfl⟩ := Option.map_eq_some_iff.mp h
      have hdrive := Drive.onward_of_step hs.settled hstep
      have hclosed := Drive.closed_eq_of_step hstep (departs_of_allowed hallowed)
      refine ⟨hs.settled.step hstep, hs.distinct, hs.queued, fun k hk => ?_, hs.own,
        fun id call hcall => (hs.calls id call hcall).mono hdrive Iff.rfl fun k _ hno hin => ?_⟩
      · rw [show _ = _ from hclosed] at hk
        exact (hs.closed k hk).trans_le hdrive.nextCaller
      · rw [show _ = _ from hclosed] at hin
        exact hno hin

end Handle

end Eggtunnel
