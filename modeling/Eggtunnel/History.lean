/-
Eggtunnel/History.lean

Who is answered, and what the desired Services are, over whole runs of `drive`.

Nobody is answered twice or forgotten, and an `Ok` is the answer of one
committed transaction (`Accounted`).  What changes the desired and the active
Services is what a step is remembered for (`Remembered`), so the desired
Services are what the history makes of the configured ones, and an id that was
unregistered comes back only with a registration begun later.
-/
import Eggtunnel.Drive
import Eggtunnel.Conservation

namespace Eggtunnel

/-! ### Accounts -/

namespace Books

open ServiceState

variable {b : Books} {closed : List CallerId} {op : Operation}

/-- The books behind an operation. -/
theorem apply_outcome (b : Books) (op : Operation) :
    ∃ t answers records, op.Outcome b.services t answers records ∧
      b.apply op = ⟨t, b.answered ++ answers, b.history ++ records⟩ :=
  ⟨_, _, _, op.outcome_apply b.services, rfl⟩

theorem keyed_apply (hb : b.services.Keyed) (op : Operation) : (b.apply op).services.Keyed := by
  obtain ⟨t, answers, records, hout, heq⟩ := b.apply_outcome op
  rw [heq]
  cases hout with
  | quiet _ _ hkeyed _ => exact hkeyed hb
  | begun h => exact keyed_begin hb h
  | committed h _ => exact (narrows_of_take h).keyed_of hb
  | unregistered => exact (unregister_clears hb _).2.1

/-- The caller occurs in the books. -/
def Known (b : Books) (caller : CallerId) : Prop :=
  caller ∈ b.answered.map Prod.fst ∨ caller ∈ b.services.callers ∨
    ∃ service, .begun caller service ∈ b.history

/-- Nobody turns up without having come. -/
theorem known_apply (hb : b.services.Keyed) {caller : CallerId}
    (h : (b.apply op).Known caller) : b.Known caller ∨ caller ∈ op.newcomer := by
  obtain ⟨dropped, hperm, -⟩ := op.conserved_apply hb
  have hback (hmem : caller ∈ (op.apply b.services).2.map Prod.fst ++ dropped ++
      (op.apply b.services).1.callers) : b.Known caller ∨ caller ∈ op.newcomer := by
    rcases List.mem_append.mp (hperm.symm.subset hmem) with hnew | hold
    · exact .inr hnew
    · exact .inl (.inr (.inl hold))
  rcases h with hanswered | hcaller | ⟨service, hbegun⟩
  · rw [show (b.apply op).answered = b.answered ++ (op.apply b.services).2 from rfl,
      List.map_append, List.mem_append] at hanswered
    rcases hanswered with hold | hnew
    · exact .inl (.inl hold)
    · exact hback (List.mem_append_left _ (List.mem_append_left _ hnew))
  · exact hback (List.mem_append_right _ hcaller)
  · obtain ⟨t, answers, records, hout, heq⟩ := b.apply_outcome op
    rw [heq] at hbegun
    rcases List.mem_append.mp hbegun with hold | hnew
    · exact .inl (.inr (.inr ⟨service, hold⟩))
    · cases hout with
      | begun =>
          cases List.mem_singleton.mp hnew
          exact .inr List.mem_cons_self
      | _ => simp at hnew

/-- **What is owed to the callers**, given those who are gone. -/
structure Accounted (closed : List CallerId) (b : Books) : Prop where
  /-- nobody is answered twice, or while its transaction is there -/
  once : (b.answered.map Prod.fst ++ b.services.callers).Nodup
  /-- a caller is that of one transaction -/
  unique : ∀ caller service service', .begun caller service ∈ b.history →
    .begun caller service' ∈ b.history → service = service'
  /-- a transaction that is there was begun -/
  waiting : ∀ txn ∈ b.services.transactions, ∀ caller, txn.reply = some caller →
    .begun caller txn.service ∈ b.history
  /-- a transaction that was begun is there, or its caller is answered or gone -/
  begun : ∀ caller service, .begun caller service ∈ b.history →
    (∃ txn ∈ b.services.transactions, txn.reply = some caller ∧ txn.service = service) ∨
      caller ∈ b.answered.map Prod.fst ∨ caller ∈ closed
  /-- a committed transaction was begun, and is answered with `Ok` -/
  committed : ∀ reply service, .committed reply service ∈ b.history →
    ∃ caller bind, reply = some caller ∧ .begun caller service ∈ b.history ∧
      (caller, .ok bind) ∈ b.answered
  /-- an `Ok` is that of a committed transaction -/
  ok : ∀ caller bind, (caller, .ok bind) ∈ b.answered →
    ∃ service, .committed (some caller) service ∈ b.history

theorem Accounted.once_apply (ha : b.Accounted closed) (hkeyed : b.services.Keyed)
    (hfresh : ∀ caller ∈ op.newcomer, ¬ b.Known caller) :
    ((b.apply op).answered.map Prod.fst ++ (b.apply op).services.callers).Nodup := by
  obtain ⟨dropped, hperm, -⟩ := op.conserved_apply hkeyed
  have hnewcomer : op.newcomer.Nodup := by
    cases op <;> simp [Operation.newcomer]
  have hall : (b.answered.map Prod.fst ++ (op.newcomer ++ b.services.callers)).Nodup := by
    have hdisj : (op.newcomer ++ (b.answered.map Prod.fst ++ b.services.callers)).Nodup := by
      refine hnewcomer.append ha.once fun caller hnew hold => hfresh caller hnew ?_
      rcases List.mem_append.mp hold with hanswered | hwaits
      · exact .inl hanswered
      · exact .inr (.inl hwaits)
    refine (List.Perm.nodup_iff ?_).mp hdisj
    rw [← List.append_assoc, ← List.append_assoc]
    exact List.perm_append_comm.append_right _
  have hsplit := (hperm.append_left (b.answered.map Prod.fst)).nodup_iff.mp hall
  refine hsplit.sublist ?_
  show ((b.answered ++ (op.apply b.services).2).map Prod.fst ++ _).Sublist _
  rw [List.map_append, List.append_assoc]
  refine (List.Sublist.refl _).append ?_
  exact (List.sublist_append_left _ _).append (List.Sublist.refl _)

theorem Accounted.unique_apply (ha : b.Accounted closed)
    (hfresh : ∀ caller ∈ op.newcomer, ¬ b.Known caller) {caller : CallerId}
    {service service' : ClientService} (h : .begun caller service ∈ (b.apply op).history)
    (h' : .begun caller service' ∈ (b.apply op).history) : service = service' := by
  obtain ⟨t, answers, records, hout, heq⟩ := b.apply_outcome op
  rw [heq] at h h'
  cases hout with
  | begun =>
      -- an older record would make the newcomer known
      have hknown {other : ClientService} (hmem : .begun caller other ∈ b.history) :
          caller ∉ Operation.newcomer _ := fun hnew => hfresh caller hnew (.inr (.inr ⟨other, hmem⟩))
      rcases List.mem_append.mp h with hold | hnew <;> rcases List.mem_append.mp h' with hold' | hnew'
      · exact ha.unique _ _ _ hold hold'
      · cases List.mem_singleton.mp hnew'
        exact absurd List.mem_cons_self (hknown hold)
      · cases List.mem_singleton.mp hnew
        exact absurd List.mem_cons_self (hknown hold')
      · cases List.mem_singleton.mp hnew
        cases List.mem_singleton.mp hnew'
        rfl
  | _ =>
      refine ha.unique caller _ _ ?_ ?_
      · simpa using h
      · simpa using h'

theorem Accounted.waiting_apply (ha : b.Accounted closed) (hkeyed : b.services.Keyed)
    {txn : PendingRegistration} (hmem : txn ∈ (b.apply op).services.transactions)
    {caller : CallerId} (hreply : txn.reply = some caller) :
    .begun caller txn.service ∈ (b.apply op).history := by
  have hdescends {t : ServiceState} (hd : Descends b.services t) (hmem : txn ∈ t.transactions) :
      .begun caller txn.service ∈ b.history := by
    obtain ⟨txn', hmem', hserv, hkept⟩ := hd txn hmem
    rw [← hserv]
    exact ha.waiting txn' hmem' caller (hkept caller hreply)
  obtain ⟨t, answers, records, hout, heq⟩ := b.apply_outcome op
  rw [heq] at hmem ⊢
  refine List.mem_append.mpr ?_
  cases hout with
  | quiet _ hd _ _ => exact .inl (hdescends hd hmem)
  | begun h =>
      rcases transactions_begin h hmem with hold | ⟨hserv, hnew⟩
      · exact .inl (ha.waiting txn hold caller hreply)
      · rw [hreply] at hnew
        cases hnew
        rw [hserv]
        exact .inr List.mem_cons_self
  | committed h _ => exact .inl (hdescends (narrows_of_take h).descends hmem)
  | unregistered => exact .inl (hdescends (unregister_clears hkeyed _).1 hmem)

/-- **Every operation keeps the accounts**, if those it takes for gone are. -/
theorem Accounted.apply (ha : b.Accounted closed) (hkeyed : b.services.Keyed)
    (hcloses : ∀ caller, op.Closes caller → caller ∈ closed)
    (hfresh : ∀ caller ∈ op.newcomer, ¬ b.Known caller) : (b.apply op).Accounted closed where
  once := ha.once_apply hkeyed hfresh
  unique _ _ _ h h' := ha.unique_apply hfresh h h'
  waiting _ hmem _ hreply := ha.waiting_apply hkeyed hmem hreply
  begun caller service h := by
    obtain ⟨dropped, hperm, hdropped⟩ := op.conserved_apply hkeyed
    -- whoever waits or comes is answered, gone or waits
    have hdue (hmem : caller ∈ op.newcomer ++ b.services.callers) :
        (∃ txn ∈ (b.apply op).services.transactions, txn.reply = some caller ∧
            txn.service = service) ∨
          caller ∈ (b.apply op).answered.map Prod.fst ∨ caller ∈ closed := by
      rcases List.mem_append.mp (hperm.subset hmem) with hout | hwaits
      · rcases List.mem_append.mp hout with hanswered | hgone
        · refine .inr (.inl ?_)
          show caller ∈ (b.answered ++ _).map Prod.fst
          rw [List.map_append]
          exact List.mem_append_right _ hanswered
        · exact .inr (.inr (hcloses caller (hdropped caller hgone)))
      · obtain ⟨txn, htxn, hreply⟩ := mem_callers.mp hwaits
        refine .inl ⟨txn, htxn, hreply, ?_⟩
        exact ha.unique_apply hfresh (ha.waiting_apply hkeyed htxn hreply) h
    have hold (hmem : .begun caller service ∈ b.history) :
        (∃ txn ∈ (b.apply op).services.transactions, txn.reply = some caller ∧
            txn.service = service) ∨
          caller ∈ (b.apply op).answered.map Prod.fst ∨ caller ∈ closed := by
      rcases ha.begun caller service hmem with ⟨txn, htxn, hreply, -⟩ | hanswered | hgone
      · exact hdue (List.mem_append_right _ (mem_callers.mpr ⟨txn, htxn, hreply⟩))
      · refine .inr (.inl ?_)
        show caller ∈ (b.answered ++ _).map Prod.fst
        rw [List.map_append]
        exact List.mem_append_left _ hanswered
      · exact .inr (.inr hgone)
    obtain ⟨t, answers, records, hout, heq⟩ := b.apply_outcome op
    rw [heq] at h
    rcases List.mem_append.mp h with hmem | hnew
    · exact hold hmem
    · cases hout with
      | begun =>
          cases List.mem_singleton.mp hnew
          exact hdue (List.mem_append_left _ List.mem_cons_self)
      | _ => simp at hnew
  committed reply service h := by
    obtain ⟨t, answers, records, hout, heq⟩ := b.apply_outcome op
    rw [heq] at h ⊢
    rcases List.mem_append.mp h with hmem | hnew
    · obtain ⟨caller, bind, hreply, hbegun, hok⟩ := ha.committed reply service hmem
      exact ⟨caller, bind, hreply, List.mem_append_left _ hbegun, List.mem_append_left _ hok⟩
    · cases hout with
      | committed htake hreply =>
          cases List.mem_singleton.mp hnew
          refine ⟨_, _, rfl, List.mem_append_left _ ?_, List.mem_append_right _ List.mem_cons_self⟩
          exact ha.waiting _ (mem_of_take htake) _ hreply
      | _ => simp at hnew
  ok caller bind h := by
    obtain ⟨t, answers, records, hout, heq⟩ := b.apply_outcome op
    rw [heq] at h ⊢
    rcases List.mem_append.mp h with hmem | hnew
    · obtain ⟨service, hservice⟩ := ha.ok caller bind hmem
      exact ⟨service, List.mem_append_left _ hservice⟩
    · cases hout with
      | quiet _ _ _ refused => exact absurd hnew (refused caller bind)
      | begun => cases hnew
      | committed htake hreply =>
          cases List.mem_singleton.mp hnew
          exact ⟨_, List.mem_append_right _ List.mem_cons_self⟩
      | unregistered => exact absurd hnew (refused_unregister b.services _)

theorem Accounted.mono (ha : b.Accounted closed) {closed' : List CallerId}
    (h : closed ⊆ closed') : b.Accounted closed' :=
  { ha with
    begun := fun caller service hmem =>
      (ha.begun caller service hmem).imp_right (.imp_right (h ·)) }

/-- **The accounts behind several operations**, each with its own newcomer. -/
theorem Accounted.run (ha : b.Accounted closed) (hkeyed : b.services.Keyed)
    {ops : List Operation} (hcloses : ∀ op ∈ ops, ∀ caller, op.Closes caller → caller ∈ closed)
    (hnodup : (ops.flatMap (·.newcomer)).Nodup)
    (hfresh : ∀ caller ∈ ops.flatMap (·.newcomer), ¬ b.Known caller) :
    (b.run ops).Accounted closed ∧ (b.run ops).services.Keyed ∧
      ∀ caller, (b.run ops).Known caller →
        b.Known caller ∨ caller ∈ ops.flatMap (·.newcomer) := by
  induction ops generalizing b with
  | nil => exact ⟨ha, hkeyed, fun _ h => .inl h⟩
  | cons op ops ih =>
      rw [List.flatMap_cons] at hnodup hfresh ⊢
      obtain ⟨-, hrest, hdisj⟩ := List.nodup_append.mp hnodup
      have hfirst := ha.apply hkeyed (hcloses op List.mem_cons_self)
        fun caller hmem => hfresh caller (List.mem_append_left _ hmem)
      obtain ⟨haccounted, hkeyed', hknown⟩ := ih hfirst (keyed_apply hkeyed op)
        (fun other hmem => hcloses other (List.mem_cons_of_mem _ hmem)) hrest fun caller hmem h => by
          rcases known_apply hkeyed h with hold | hnew
          · exact hfresh caller (List.mem_append_right _ hmem) hold
          · exact hdisj caller hnew caller hmem rfl
      refine ⟨haccounted, hkeyed', fun caller h => ?_⟩
      rcases hknown caller h with hfirst | hlater
      · exact (known_apply hkeyed hfirst).imp_right (List.mem_append_left _)
      · exact .inr (List.mem_append_right _ hlater)

end Books

/-! ### Who comes, and who is gone -/

namespace Client

/-- Those whom an operation takes for gone have dropped their receiver. -/
theorem closes_operations (s : Client) (e : ClientEvent) {op : Operation}
    (hop : op ∈ s.operations e) {caller : CallerId} (h : op.Closes caller) :
    caller ∈ s.closed := by
  have hbranch := s.branch_operations e
  generalize s.operations e = ops at hbranch hop
  cases hbranch with
  | still => cases hop
  | acknowledged =>
      cases List.mem_singleton.mp hop
      exact List.contains_iff_mem.mp h
  | begun hrest =>
      rcases List.mem_cons.mp hop with rfl | hmem
      · obtain ⟨rfl, hgone⟩ := h
        exact List.contains_iff_mem.mp hgone
      · rcases hrest with rfl | ⟨deadline, rfl⟩ | rfl | rfl
        · cases hmem
        all_goals
          cases List.mem_singleton.mp hmem
          exact h.elim
  | ended =>
      rcases List.mem_cons.mp hop with rfl | hmem
      · exact h.elim
      · cases List.mem_singleton.mp hmem
        exact h.elim
  | _ =>
      cases List.mem_singleton.mp hop
      exact h.elim

/-- The callers a step brings: that of a registration. -/
theorem newcomers_operations (s : Client) (e : ClientEvent) :
    (s.operations e).flatMap (·.newcomer) = [] ∨
      ∃ service k o now, e = .command (.register service k) o now ∧
        (s.operations e).flatMap (·.newcomer) = [k] := by
  have hbranch := s.branch_operations e
  generalize s.operations e = ops at hbranch ⊢
  cases hbranch with
  | begun hrest =>
      refine .inr ⟨_, _, _, _, rfl, ?_⟩
      rcases hrest with rfl | ⟨deadline, rfl⟩ | rfl | rfl <;> rfl
  | _ => exact .inl rfl

end Client

namespace Drive

variable {s t : Drive}

theorem closes_operations (s : Drive) (e : DriveEvent) {op : Operation}
    (hop : op ∈ s.operations e) {caller : CallerId} (h : op.Closes caller) :
    caller ∈ s.closed := by
  have hclient {c : Client} (hstage : s.stage = .session c) {ce : ClientEvent}
      (hop : op ∈ c.operations ce) : caller ∈ s.closed := by
    unfold closed
    rw [hstage]
    exact c.closes_operations ce hop h
  unfold operations at hop
  split at hop
  · cases List.mem_singleton.mp hop
    exact h.elim
  · exact hclient (by assumption) hop
  · cases List.mem_singleton.mp hop
    exact h.elim
  · exact hclient (by assumption) hop
  · split_ifs at hop
    · simp only [List.mem_cons, List.not_mem_nil, or_false] at hop
      rcases hop with rfl | rfl | rfl <;> exact h.elim
    · simp only [List.mem_cons, List.not_mem_nil, or_false] at hop
      rcases hop with rfl | rfl <;> exact h.elim
    · cases hop
  · exact hclient (by assumption) hop
  · cases hop

/-- A command has the next caller, and nobody else comes. -/
theorem newcomers_of_step {e : DriveEvent} (h : s.step e = some t) :
    s.nextCaller ≤ t.nextCaller ∧
      ((s.operations e).flatMap (·.newcomer) = [] ∨
        ((s.operations e).flatMap (·.newcomer) = [s.nextCaller] ∧
          t.nextCaller = s.nextCaller + 1)) := by
  have hfinish (result : Except TunnelError Unit) (services : ServiceState) (counters : Counters)
      (closed : List CallerId) :
      (s.finish result services counters closed).nextCaller = s.nextCaller := by
    unfold finish
    split <;> rfl
  cases moves_of_step h with
  | declined hstage => exact ⟨Nat.le_succ _, .inr ⟨by simp [operations, hstage]; rfl, rfl⟩⟩
  | forgotten hstage => exact ⟨Nat.le_succ _, .inl (by simp [operations, hstage]; rfl)⟩
  | gone hstage => exact ⟨le_rfl, .inl (by simp [operations])⟩
  | failed hstage => exact ⟨(hfinish _ _ _ _).ge, .inl (by simp [operations])⟩
  | started hstage =>
      refine ⟨le_rfl, .inl ?_⟩
      simp only [operations, hstage]
      split_ifs <;> rfl
  | @registered c service o now r hstage hstep =>
      refine ⟨Nat.le_succ _, ?_⟩
      simp only [operations, hstage]
      rcases c.newcomers_operations (.command (.register service s.nextCaller) o now) with hnil |
        ⟨_, _, _, _, heq, hone⟩
      · exact .inl hnil
      · cases heq
        exact .inr ⟨hone, trivial⟩
  | @unregistered c id o now r hstage hstep =>
      refine ⟨Nat.le_succ _, .inl ?_⟩
      simp only [operations, hstage]
      rcases c.newcomers_operations (.command (.unregister id s.nextCaller) o now) with hnil |
        ⟨_, _, _, _, heq, -⟩
      · exact hnil
      · cases heq
  | @went c ce r hstage hcmd hstep =>
      refine ⟨le_rfl, .inl ?_⟩
      simp only [operations, hstage]
      rcases c.newcomers_operations ce with hnil | ⟨_, _, _, _, rfl, -⟩
      · exact hnil
      · cases hcmd
  | ended hstage hphase => exact ⟨(hfinish _ _ _ _).ge, .inl (by simp [operations])⟩
  | stopped hrunning => exact ⟨le_rfl, .inl (by simp [operations])⟩

theorem closed_start (policy : RuntimePolicy) (sessionId : SessionId) (correlated : Bool)
    (services : ServiceState) (counters : Counters) (closed : List CallerId) :
    (Client.start policy sessionId correlated services counters closed).1.closed = closed := by
  unfold Client.start
  dsimp only
  split
  · rfl
  · exact (Client.fixed_continueRegistering _ _).2.2

/-- Who is gone stays gone. -/
theorem closed_of_step {e : DriveEvent} (h : s.step e = some t) : s.closed ⊆ t.closed := by
  obtain ⟨policy, stage, nextCaller, answered, history⟩ := s
  have hfinish {s : Drive} (result : Except TunnelError Unit) (services : ServiceState)
      (counters : Counters) (closed : List CallerId) :
      (s.finish result services counters closed).closed = closed := by
    unfold finish
    split <;> rfl
  cases moves_of_step h with
  | declined hstage | forgotten hstage =>
      cases hstage
      exact List.Subset.refl _
  | gone hstage =>
      cases hstage
      exact List.subset_cons_self _ _
  | failed hstage | ended hstage =>
      cases hstage
      rw [hfinish]
      exact List.Subset.refl _
  | started hstage =>
      cases hstage
      rw [show (advance _ _ _).closed = _ from closed_start _ _ _ _ _ _]
      exact List.Subset.refl _
  | registered hstage hstep | unregistered hstage hstep | went hstage hcmd hstep =>
      cases hstage
      exact (Client.fixed_step hstep).2.2
  | stopped hrunning => exact List.Subset.refl _

/-- The accounts between the steps of a run. -/
structure Settled (s : Drive) : Prop where
  accounted : s.books.Accounted s.closed
  keyed : s.services.Keyed
  known : ∀ caller, s.books.Known caller → caller < s.nextCaller

/-- The accounts behind the first operations of a step. -/
theorem Settled.operations (hs : Settled s) {e : DriveEvent} (h : s.step e = some t) (n : Nat) :
    (s.books.run ((s.operations e).take n)).Accounted s.closed ∧
      (s.books.run ((s.operations e).take n)).services.Keyed ∧
      ∀ caller, (s.books.run ((s.operations e).take n)).Known caller → caller < t.nextCaller := by
  obtain ⟨hle, hnew⟩ := newcomers_of_step h
  have hnodup : ((s.operations e).flatMap (·.newcomer)).Nodup := by
    rcases hnew with hnil | ⟨hone, -⟩
    · rw [hnil]
      exact List.nodup_nil
    · rw [hone]
      exact List.nodup_singleton _
  have hnext : ∀ caller ∈ (s.operations e).flatMap (·.newcomer),
      caller = s.nextCaller ∧ caller < t.nextCaller := by
    intro caller hmem
    rcases hnew with hnil | ⟨hone, hsucc⟩
    · rw [hnil] at hmem
      cases hmem
    · rw [hone] at hmem
      cases List.mem_singleton.mp hmem
      exact ⟨rfl, hsucc ▸ Nat.lt_succ_self _⟩
  have hsub : (((s.operations e).take n).flatMap (·.newcomer)).Sublist
      ((s.operations e).flatMap (·.newcomer)) := (List.take_sublist _ _).flatMap _
  obtain ⟨haccounted, hkeyed, hknown⟩ := hs.accounted.run hs.keyed
    (fun op hmem _ hc => s.closes_operations e (List.mem_of_mem_take hmem) hc)
    (hnodup.sublist hsub) fun caller hmem hk => by
      exact (hs.known caller hk).ne (hnext caller (hsub.subset hmem)).1
  refine ⟨haccounted, hkeyed, fun caller hk => ?_⟩
  rcases hknown caller hk with hold | hmem
  · exact (hs.known caller hold).trans_le hle
  · exact (hnext caller (hsub.subset hmem)).2

/-- **A step keeps the accounts.** -/
theorem Settled.step (hs : Settled s) {e : DriveEvent} (h : s.step e = some t) : Settled t := by
  obtain ⟨haccounted, hkeyed, hknown⟩ := hs.operations h (s.operations e).length
  rw [List.take_length, ← step_books h] at haccounted hkeyed hknown
  exact ⟨haccounted.mono (closed_of_step h), hkeyed, hknown⟩

theorem settled_init (c : DriveConfig) : Settled (init c) where
  accounted :=
    { once := List.nodup_nil
      unique := fun _ _ _ h => by cases h
      waiting := fun _ h => by cases h
      begun := fun _ _ h => by cases h
      committed := fun _ _ h => by cases h
      ok := fun _ _ h => by cases h }
  keyed _ _ h := by cases h
  known caller h := by
    rcases h with h | h | ⟨service, h⟩ <;> cases h

end Drive

/-! ### What a step is remembered for -/

namespace Operation

theorem acknowledge_of_record {s : ServiceState} {op : Operation} {reply : Option CallerId}
    {service : ClientService} (h : .committed reply service ∈ op.record s) :
    ∃ id generation closed bind, op = .acknowledge id generation closed bind := by
  obtain ⟨t, answers, records, hout, heq⟩ := Books.apply_outcome ⟨s, [], []⟩ op
  have hrec : op.record s = records := congrArg Books.history heq
  rw [hrec] at h
  cases hout with
  | committed => exact ⟨_, _, _, _, rfl⟩
  | _ => simp at h

theorem unregister_of_record {s : ServiceState} {op : Operation} {id : ServiceId}
    (h : .unregistered id ∈ op.record s) : op = .unregister id := by
  obtain ⟨t, answers, records, hout, heq⟩ := Books.apply_outcome ⟨s, [], []⟩ op
  have hrec : op.record s = records := congrArg Books.history heq
  rw [hrec] at h
  cases hout with
  | unregistered =>
      cases List.mem_singleton.mp h
      rfl
  | _ => simp at h

end Operation

namespace Books

/-- A record is that of one of the operations. -/
theorem mem_history_run {b : Books} {ops : List Operation} {r : Record}
    (h : r ∈ (b.run ops).history) : r ∈ b.history ∨ ∃ op ∈ ops, ∃ s, r ∈ op.record s := by
  induction ops generalizing b with
  | nil => exact .inl h
  | cons op ops ih =>
      rcases ih (b := b.apply op) h with hfirst | ⟨other, hmem, hrec⟩
      · refine (List.mem_append.mp hfirst).imp_right fun hrec => ?_
        exact ⟨op, List.mem_cons_self, b.services, hrec⟩
      · exact .inr ⟨other, List.mem_cons_of_mem _ hmem, hrec⟩

/-- The desired Services are what the records make of them. -/
theorem desired_run (b : Books) (ops : List Operation) :
    ∃ records, (b.run ops).history = b.history ++ records ∧
      (b.run ops).services.desired = records.foldl Record.amend b.services.desired ∧
      ((∀ op ∈ ops, op.isInner = true) →
        (b.run ops).services.active = records.foldl Record.amendActive b.services.active) := by
  induction ops generalizing b with
  | nil => exact ⟨[], (List.append_nil _).symm, rfl, fun _ => rfl⟩
  | cons op ops ih =>
      obtain ⟨records, hhistory, hdesired, hactive⟩ := ih (b.apply op)
      obtain ⟨hfirst, hinner⟩ := op.lists_apply b.services
      refine ⟨op.record b.services ++ records, ?_, ?_, fun hall => ?_⟩
      · show ((b.apply op).run ops).history = _
        rw [hhistory, ← List.append_assoc]
        rfl
      · show ((b.apply op).run ops).services.desired = _
        rw [hdesired, List.foldl_append, ← hfirst]
        rfl
      · show ((b.apply op).run ops).services.active = _
        rw [hactive fun other hmem => hall other (List.mem_cons_of_mem _ hmem),
          List.foldl_append, ← hinner (hall op List.mem_cons_self)]
        rfl

end Books

namespace Client

variable {s : Client} {e : ClientEvent}

/-- An acknowledgement is a step of its own. -/
theorem operations_of_acknowledge {id : ServiceId} {generation : Nat} {closed : CallerId → Bool}
    {bind : EffectiveBind} (h : .acknowledge id generation closed bind ∈ s.operations e) :
    (∃ ack o, e = .incoming (.registerAck ack) o ∧ id = ack.serviceId) ∧
      s.operations e = [.acknowledge id generation closed bind] := by
  have hbranch := s.branch_operations e
  generalize s.operations e = ops at hbranch h ⊢
  cases hbranch with
  | acknowledged =>
      cases List.mem_singleton.mp h
      exact ⟨⟨_, _, rfl, rfl⟩, rfl⟩
  | begun hrest => rcases hrest with rfl | ⟨deadline, rfl⟩ | rfl | rfl <;> simp at h
  | _ => simp at h

theorem command_of_unregister {id : ServiceId} (h : .unregister id ∈ s.operations e) :
    ∃ reply o now, e = .command (.unregister id reply) o now := by
  have hbranch := s.branch_operations e
  generalize s.operations e = ops at hbranch h
  cases hbranch with
  | unregistered =>
      cases List.mem_singleton.mp h
      exact ⟨_, _, _, rfl⟩
  | begun hrest => rcases hrest with rfl | ⟨deadline, rfl⟩ | rfl | rfl <;> simp at h
  | _ => simp at h

/-- The ends of a Session reset what is active. -/
theorem operations_inner (s : Client) (e : ClientEvent) :
    (∀ op ∈ s.operations e, op.isInner = true) ∨ s.operations e = [.activateInitial] ∨
      ∃ error, s.operations e = [.finishPending error, .clearActive] := by
  have hbranch := s.branch_operations e
  generalize s.operations e = ops at hbranch ⊢
  cases hbranch with
  | activated => exact .inr (.inl rfl)
  | ended => exact .inr (.inr ⟨_, rfl⟩)
  | begun hrest =>
      refine .inl ?_
      rcases hrest with rfl | ⟨deadline, rfl⟩ | rfl | rfl <;> simp [Operation.isInner]
  | _ => exact .inl (by simp [Operation.isInner])

end Client

namespace Drive

variable {s t : Drive} {e : DriveEvent}

theorem operations_of_acknowledge {id : ServiceId} {generation : Nat} {closed : CallerId → Bool}
    {bind : EffectiveBind} (h : .acknowledge id generation closed bind ∈ s.operations e) :
    (∃ ack o, e = .client (.incoming (.registerAck ack) o) ∧ id = ack.serviceId) ∧
      s.operations e = [.acknowledge id generation closed bind] := by
  unfold operations at h ⊢
  split at h
  · simp at h
  · obtain ⟨⟨_, _, heq, -⟩, -⟩ := Client.operations_of_acknowledge h
    cases heq
  · simp at h
  · obtain ⟨⟨_, _, heq, -⟩, -⟩ := Client.operations_of_acknowledge h
    cases heq
  · split_ifs at h <;> simp at h
  · obtain ⟨⟨ack, o, rfl, hid⟩, hops⟩ := Client.operations_of_acknowledge h
    exact ⟨⟨ack, o, rfl, hid⟩, hops⟩
  · cases h

theorem event_of_unregister {id : ServiceId} (hstep : s.step e = some t)
    (h : .unregister id ∈ s.operations e) : ∃ o now, e = .unregister id o now := by
  cases moves_of_step hstep with
  | declined hstage => simp [operations, hstage] at h
  | forgotten hstage =>
      simp only [operations, hstage, List.mem_singleton] at h
      cases h
      exact ⟨_, _, rfl⟩
  | started hstage =>
      simp only [operations, hstage] at h
      split_ifs at h <;> simp at h
  | registered hstage =>
      simp only [operations, hstage] at h
      obtain ⟨_, _, _, heq⟩ := Client.command_of_unregister h
      cases heq
  | unregistered hstage =>
      simp only [operations, hstage] at h
      obtain ⟨_, _, _, heq⟩ := Client.command_of_unregister h
      cases heq
      exact ⟨_, _, rfl⟩
  | went hstage hcmd =>
      simp only [operations, hstage] at h
      obtain ⟨_, _, _, rfl⟩ := Client.command_of_unregister h
      cases hcmd
  | gone | failed | ended | stopped => simp [operations] at h

theorem operations_of_unregister {id : ServiceId} {o : WriteOutcome} {now : Instant}
    (h : s.step (.unregister id o now) = some t) :
    s.operations (.unregister id o now) = [.unregister id] := by
  cases moves_of_step h with
  | forgotten hstage => simp only [operations, hstage]
  | @unregistered c _ _ _ r hstage hstep =>
      simp only [operations, hstage, Client.operations, Client.ready_of_command hstep]

/-- The ends of a Session reset what is active, and do nothing else. -/
theorem active_of_operations (s : Drive) (e : DriveEvent) :
    (∀ op ∈ s.operations e, op.isInner = true) ∨
      ((s.books.run (s.operations e)).history = s.history ∧
        ((s.books.run (s.operations e)).services.active = ∅ ∨
          (s.books.run (s.operations e)).services.active = s.services.activateInitial.active)) := by
  have hclient (c : Client) (ce : ClientEvent) :
      (∀ op ∈ c.operations ce, op.isInner = true) ∨
        ((s.books.run (c.operations ce)).history = s.history ∧
          ((s.books.run (c.operations ce)).services.active = ∅ ∨
            (s.books.run (c.operations ce)).services.active
              = s.services.activateInitial.active)) := by
    refine (c.operations_inner ce).imp_right ?_
    rintro (hops | ⟨error, hops⟩)
    · rw [hops]
      exact ⟨List.append_nil _, .inr rfl⟩
    · rw [hops]
      refine ⟨?_, .inl rfl⟩
      show s.history ++ [] ++ [] = s.history
      rw [List.append_nil, List.append_nil]
  unfold operations
  split
  · exact .inl (by simp [Operation.isInner])
  · exact hclient _ _
  · exact .inl (by simp [Operation.isInner])
  · exact hclient _ _
  · split_ifs
    · refine .inr ⟨?_, .inr rfl⟩
      show s.history ++ [] ++ [] ++ [] = s.history
      simp only [List.append_nil]
    · refine .inr ⟨?_, .inl rfl⟩
      show s.history ++ [] ++ [] = s.history
      simp only [List.append_nil]
    · exact .inl (by simp)
  · exact hclient _ _
  · exact .inl (by simp)

/-- **What a step does to the Services** is what it is remembered for: a
committed acknowledgement, or a processed unregister command. -/
structure Remembered (s : Drive) (e : DriveEvent) (t : Drive) (records : List Record) : Prop where
  history : t.history = s.history ++ records
  desired : t.services.desired = records.foldl Record.amend s.services.desired
  /-- the active Services follow, but for where a Session starts, gets ready or ends -/
  active : t.services.active = records.foldl Record.amendActive s.services.active ∨
    (records = [] ∧ (t.services.active = ∅ ∨
      t.services.active = s.services.activateInitial.active))
  committed : ∀ reply service, .committed reply service ∈ records →
    records = [.committed reply service] ∧
      (∃ txn ∈ s.services.transactions, txn.service = service ∧ txn.reply = reply) ∧
      ∃ ack o, e = .client (.incoming (.registerAck ack) o) ∧ ack.serviceId = service.id
  unregistered : ∀ id, .unregistered id ∈ records ↔ ∃ o now, e = .unregister id o now

theorem Settled.remembered (hs : Settled s) (h : s.step e = some t) :
    ∃ records, Remembered s e t records := by
  obtain ⟨records, hhistory, hdesired, hactive⟩ := s.books.desired_run (s.operations e)
  have hbooks := step_books h
  have hrun : t.history = s.history ++ records := (congrArg Books.history hbooks).trans hhistory
  have hmem {r : Record} (hr : r ∈ records) : ∃ op ∈ s.operations e, ∃ u, r ∈ op.record u := by
    rw [Books.run_eq s.books (s.operations e)] at hhistory
    have hrecords := List.append_cancel_left hhistory
    rw [← hrecords] at hr
    exact (Books.mem_history_run hr).resolve_left List.not_mem_nil
  refine ⟨records, hrun, ?_, ?_, fun reply service hr => ?_, fun id => ⟨fun hr => ?_, ?_⟩⟩
  · exact (congrArg (·.services.desired) hbooks).trans hdesired
  · rcases s.active_of_operations e with hinner | ⟨hsame, hreset⟩
    · exact .inl ((congrArg (·.services.active) hbooks).trans (hactive hinner))
    · rw [← hbooks] at hreset
      refine .inr ⟨?_, hreset⟩
      rw [hsame] at hhistory
      exact List.self_eq_append_right.mp hhistory
  · obtain ⟨op, hop, u, hrec⟩ := hmem hr
    obtain ⟨id, generation, closed, bind, rfl⟩ := Operation.acknowledge_of_record hrec
    obtain ⟨⟨ack, o, rfl, rfl⟩, hops⟩ := operations_of_acknowledge hop
    rw [hops] at hhistory
    have hrecord : records = (Operation.acknowledge ack.serviceId generation closed bind).record
        s.services := (List.append_cancel_left hhistory).symm
    obtain ⟨v, answers, records', hout, heq⟩ := s.books.apply_outcome
      (.acknowledge ack.serviceId generation closed bind)
    have hsame : records = records' := by
      rw [hrecord]
      exact List.append_cancel_left (congrArg Books.history heq)
    subst hsame
    cases hout with
    | quiet => cases hr
    | committed htake hreply =>
        cases List.mem_singleton.mp hr
        refine ⟨rfl, ⟨_, ServiceState.mem_of_take htake, rfl, hreply⟩, ack, o, rfl, ?_⟩
        obtain ⟨-, hid, -⟩ | ⟨-, hlook, -⟩ := ServiceState.takeTransaction_eq_found htake
        · exact hid.symm
        · exact (hs.keyed _ _ hlook).symm
  · obtain ⟨op, hop, u, hrec⟩ := hmem hr
    rw [Operation.unregister_of_record hrec] at hop
    exact event_of_unregister h hop
  · rintro ⟨o, now, rfl⟩
    rw [operations_of_unregister h] at hhistory
    have hrecord : [.unregistered id] = records := List.append_cancel_left hhistory
    rw [← hrecord]
    exact List.mem_cons_self

theorem settled_of_run {c : DriveConfig} {es : List DriveEvent}
    (hrun : exec step (init c) es = some s) : Settled s :=
  exec_inv_of_step (fun _ _ _ hs h => hs.step h) (settled_init c) hrun

/-- An answer is never taken back. -/
theorem answered_of_run {es : List DriveEvent} {a : Answer} (ha : a ∈ s.answered)
    (hrun : exec step s es = some t) : a ∈ t.answered := by
  refine exec_inv_of_step (fun (s : Drive) e t (hs : a ∈ s.answered) h => ?_) ha hrun
  rw [show t.answered = (s.books.run (s.operations e)).answered from
    congrArg Books.answered (step_books h), Books.run_eq]
  exact List.mem_append_left _ hs

/-- **Every registration is answered as it took effect.**  Behind every single
operation of a run, a transaction that was begun is there or its caller is
answered or gone, nobody is answered twice, and the callers answered with `Ok`
are those of the committed transactions; the transaction of a caller answered
with an error is never committed.  What changes the desired and the active
Services is what a step is remembered for, and committing a transaction appends
its Service to the one and inserts it in the other. -/
theorem registrations_answered (c : DriveConfig) (es : List DriveEvent)
    (hrun : exec step (init c) es = some s) :
    s.books.Accounted s.closed ∧
      (∀ caller, (∃ bind, (caller, .ok bind) ∈ s.answered) ↔
        ∃ service, .committed (some caller) service ∈ s.history) ∧
      (∀ caller error, (caller, .error error) ∈ s.answered →
        ∀ es' u, exec step s es' = some u →
          ∀ service, .committed (some caller) service ∉ u.history) ∧
      ∀ e t, s.step e = some t →
        (∀ n, (s.books.run ((s.operations e).take n)).Accounted s.closed) ∧
        ∃ records, Remembered s e t records ∧
          ∀ caller service, .committed caller service ∈ records →
            t.services.desired = s.services.desired ++ [service] ∧
              t.services.active = s.services.active.insert service.id service := by
  have hs := settled_of_run hrun
  refine ⟨hs.accounted, fun caller => ⟨fun ⟨bind, hok⟩ => hs.accounted.ok caller bind hok, ?_⟩,
    fun caller error herror es' u hlater service hmem => ?_, fun e t h => ⟨fun n => ?_, ?_⟩⟩
  · rintro ⟨service, hmem⟩
    obtain ⟨k, bind, heq, -, hok⟩ := hs.accounted.committed _ _ hmem
    cases heq
    exact ⟨bind, hok⟩
  · -- the two answers would be two of the same caller
    have hu := (settled_of_run (exec_trans hrun hlater)).accounted
    obtain ⟨k, bind, heq, -, hok⟩ := hu.committed _ _ hmem
    cases heq
    have hnodup := hu.once.sublist (List.sublist_append_left _ _)
    have hsame := List.inj_on_of_nodup_map hnodup (answered_of_run herror hlater) hok rfl
    cases hsame
  · exact (hs.operations h n).1
  · obtain ⟨records, hr⟩ := hs.remembered h
    refine ⟨records, hr, fun caller service hmem => ?_⟩
    obtain ⟨hone, -, -⟩ := hr.committed caller service hmem
    have hdesired := hr.desired
    rw [hone] at hdesired
    refine ⟨hdesired, ?_⟩
    rcases hr.active with hactive | ⟨hnil, -⟩
    · rw [hone] at hactive
      exact hactive
    · rw [hone] at hnil
      cases hnil

theorem registrations_answered_two_sessions :
    exec step (init smallDrive) twoSessions = some afterTwoSessions ∧
      (0, .error .cancelled) ∈ afterTwoSessions.answered ∧
      (∀ service, .committed (some 0) service ∉ afterTwoSessions.history) ∧
      ∃ service, .committed (some 3) service ∈ afterTwoSessions.history := by
  have hrun : exec step (init smallDrive) twoSessions = some afterTwoSessions :=
    Option.eq_some_of_isSome _
  obtain ⟨-, hok, herror, -⟩ := registrations_answered smallDrive twoSessions hrun
  have hcancelled : (0, .error .cancelled) ∈ afterTwoSessions.answered := by decide +kernel
  refine ⟨hrun, hcancelled, herror 0 _ hcancelled [] _ rfl, (hok 3).mp ?_⟩
  exact ⟨⟨Vector.replicate 16 0, 1001⟩, by decide +kernel⟩

end Drive

/-! ### What was unregistered -/

/-- The last entry is the one asked for, or it comes after it. -/
theorem concat_eq_append_cons {α : Type} {l before after : List α} {r x : α}
    (h : l ++ [r] = before ++ x :: after) :
    (after = [] ∧ r = x) ∨ ∃ rest, after = rest ++ [r] ∧ l = before ++ x :: rest := by
  rcases List.eq_nil_or_concat' after with rfl | ⟨rest, y, rfl⟩
  · exact .inl ⟨rfl, (List.append_singleton_inj.mp h).2⟩
  · rw [← List.cons_append, ← List.append_assoc] at h
    obtain ⟨hl, rfl⟩ := List.append_singleton_inj.mp h
    exact .inr ⟨rest, rfl, hl⟩

namespace Books

open ServiceState

variable {b : Books} {op : Operation}

/-- **Whatever has an unregistered id was begun afterwards.** -/
def Unrevived (b : Books) : Prop :=
  ∀ id before after, b.history = before ++ .unregistered id :: after →
    (∀ service ∈ b.services.desired, service.id = id →
      ∃ caller, [.begun caller service, .committed (some caller) service].Sublist after) ∧
    ∀ txn ∈ b.services.transactions, txn.service.id = id →
      ∀ caller, txn.reply = some caller → .begun caller txn.service ∈ after

theorem Unrevived.apply (hb : b.Unrevived) (hkeyed : b.services.Keyed) (op : Operation) :
    (b.apply op).Unrevived := by
  intro id before after h
  obtain ⟨t, answers, records, hout, heq⟩ := b.apply_outcome op
  rw [heq] at h ⊢
  cases hout with
  | quiet hdesired hdescends _ _ =>
      rw [List.append_nil] at h
      obtain ⟨hservices, htxns⟩ := hb id before after h
      refine ⟨fun service hmem hid => ?_, fun txn hmem hid caller hreply => ?_⟩
      · exact hservices service (hdesired ▸ hmem) hid
      · obtain ⟨txn', hmem', hserv, hkept⟩ := hdescends txn hmem
        rw [← hserv] at hid ⊢
        exact htxns txn' hmem' hid caller (hkept caller hreply)
  | begun hbegin =>
      rcases concat_eq_append_cons h with ⟨-, hne⟩ | ⟨rest, rfl, hold⟩
      · cases hne
      obtain ⟨hservices, htxns⟩ := hb id before rest hold
      refine ⟨fun service hmem hid => ?_, fun txn hmem hid caller hreply => ?_⟩
      · have hkept : t.desired = b.services.desired := by
          obtain ⟨-, ⟨-, -, rfl⟩ | ⟨n, -, -, rfl⟩⟩ := begin_eq_ok hbegin <;> rfl
        obtain ⟨caller, hsub⟩ := hservices service (hkept ▸ hmem) hid
        exact ⟨caller, hsub.trans (List.sublist_append_left _ _)⟩
      · rcases transactions_begin hbegin hmem with hmem' | ⟨hserv, hnew⟩
        · exact List.mem_append_left _ (htxns txn hmem' hid caller hreply)
        · rw [hreply] at hnew
          cases hnew
          rw [hserv]
          exact List.mem_append_right _ List.mem_cons_self
  | @committed u id' generation closed bind txn home k htake hreply =>
      rcases concat_eq_append_cons h with ⟨-, hne⟩ | ⟨rest, rfl, hold⟩
      · cases hne
      obtain ⟨hservices, htxns⟩ := hb id before rest hold
      have hnarrows := narrows_of_take htake
      refine ⟨fun service hmem hid => ?_, fun other hmem hid caller hother => ?_⟩
      · have hkept := (kept_takeTransaction b.services id').1
        rw [htake] at hkept
        rcases List.mem_append.mp hmem with hmem' | hnew
        · obtain ⟨caller, hsub⟩ := hservices service (hkept ▸ hmem') hid
          exact ⟨caller, hsub.trans (List.sublist_append_left _ _)⟩
        · -- its transaction was begun after the id was unregistered
          cases List.mem_singleton.mp hnew
          have hbegun := htxns txn (mem_of_take htake) hid k hreply
          exact ⟨k, (List.singleton_sublist.mpr hbegun).append (List.Sublist.refl [_])⟩
      · obtain ⟨txn', hmem', hserv, hkept⟩ := hnarrows.descends other hmem
        rw [← hserv] at hid ⊢
        exact List.mem_append_left _ (htxns txn' hmem' hid caller (hkept caller hother))
  | @unregistered id' =>
      obtain ⟨hdesired, -⟩ := lists_unregister b.services id'
      obtain ⟨hdescends, -, hclear⟩ := unregister_clears hkeyed id'
      rcases concat_eq_append_cons h with ⟨rfl, heq⟩ | ⟨rest, rfl, hold⟩
      · cases heq
        refine ⟨fun service hmem hid => ?_, fun txn hmem hid => absurd hid (hclear txn hmem)⟩
        rw [hdesired, List.mem_filter] at hmem
        exact absurd hid (by simpa using hmem.2)
      · obtain ⟨hservices, htxns⟩ := hb id before rest hold
        refine ⟨fun service hmem hid => ?_, fun txn hmem hid caller hreply => ?_⟩
        · rw [hdesired, List.mem_filter] at hmem
          obtain ⟨caller, hsub⟩ := hservices service hmem.1 hid
          exact ⟨caller, hsub.trans (List.sublist_append_left _ _)⟩
        · obtain ⟨txn', hmem', hserv, hkept⟩ := hdescends txn hmem
          rw [← hserv] at hid ⊢
          exact List.mem_append_left _ (htxns txn' hmem' hid caller (hkept caller hreply))

theorem Unrevived.run (hb : b.Unrevived) (hkeyed : b.services.Keyed) (ops : List Operation) :
    (b.run ops).Unrevived := by
  induction ops generalizing b with
  | nil => exact hb
  | cons op ops ih => exact ih (hb.apply hkeyed op) (keyed_apply hkeyed op)

end Books

/-! ### What is registered again -/

namespace Client

variable {s t : Client} {fx : Effects} {e : ClientEvent}

/-- The initial exchange goes through what it started with. -/
theorem todo_of_step {todo' : List ClientService} {sent' : Bool} (h : s.step e = some (t, fx))
    (ht : t.phase = .registering todo' sent') :
    t.services = s.services ∧ ∃ todo sent, s.phase = .registering todo sent ∧ todo' <:+ todo := by
  have hopen : t.phase.isOpen = true := by rw [ht]; rfl
  rcases hphase : s.phase with ⟨todo, sent⟩ | - | timedOut | result
  · refine ⟨services_registering hphase h (by simp [ht]), todo, sent, rfl, ?_⟩
    rcases step_registering hphase h with ⟨-, -, hsame, -⟩ |
      ⟨service, rest, o, -, rfl, -, hnext⟩ | ⟨service, rest, m, o, -, rfl, -, rfl, -⟩ |
      ⟨err, -, rfl, -⟩
    · rw [hsame, hphase] at ht
      cases ht
      exact List.suffix_refl _
    · unfold registerNext at hnext
      dsimp only at hnext
      split at hnext
      · cases hnext
        cases ht
        exact List.suffix_refl _
      · cases hnext
        cases ht
    · unfold initialResponse at ht
      split at ht
      · split_ifs at ht
        · cases rest with
          | nil => cases ht
          | cons next rest =>
              cases ht
              exact List.suffix_cons _ _
      · cases ht
    · cases ht
  · rw [ready_of_step hphase h hopen] at ht
    cases ht
  all_goals
    have hs := isOpen_of_step h hopen
    rw [hphase] at hs
    cases hs

/-- A Session starts by registering what is desired. -/
theorem phase_start (policy : RuntimePolicy) (sessionId : SessionId) (correlated : Bool)
    (services : ServiceState) (counters : Counters) (closed : List CallerId) :
    (start policy sessionId correlated services counters closed).1.services.desired
        = services.desired ∧
      ((start policy sessionId correlated services counters closed).1.phase
          = .registering services.desired false ∨
        (services.desired = [] ∧
          (start policy sessionId correlated services counters closed).1.phase = .ready) ∨
        (start policy sessionId correlated services counters closed).1.phase.isOpen = false) := by
  rcases start_cases policy sessionId correlated services counters closed with
    ⟨-, hclosed, hservices, -⟩ | ⟨pre, hpre, -, -, hdesired, -⟩
  · exact ⟨by rw [hservices], .inr (.inr hclosed)⟩
  · rw [hpre]
    rcases hd : services.desired with - | ⟨first, rest⟩
    · exact ⟨hdesired.trans hd, .inr (.inl ⟨rfl, rfl⟩)⟩
    · exact ⟨hdesired.trans hd, .inl rfl⟩

end Client

namespace Drive

variable {s t : Drive} {e : DriveEvent}

/-- The desired Services, from the configured ones on. -/
structure Recalled (c : DriveConfig) (s : Drive) : Prop where
  settled : Settled s
  desired : s.services.desired = s.history.foldl Record.amend c.services
  unrevived : s.books.Unrevived
  exchange : ∀ client todo sent, s.stage = .session client →
    client.phase = .registering todo sent → todo <:+ s.services.desired

/-- A step of the client keeps what the exchange has to do. -/
theorem exchange_of_client {c : Client} {ce : ClientEvent} {r : Client × Effects}
    (hold : ∀ todo sent, c.phase = .registering todo sent → todo <:+ c.services.desired)
    (hstep : c.step ce = some r) {todo : List ClientService} {sent : Bool}
    (hr : r.1.phase = .registering todo sent) : todo <:+ r.1.services.desired := by
  obtain ⟨hservices, todo', sent', hphase, hsuffix⟩ := Client.todo_of_step hstep hr
  rw [hservices]
  exact hsuffix.trans (hold todo' sent' hphase)

theorem Recalled.step {c : DriveConfig} (hs : Recalled c s) (h : s.step e = some t) :
    Recalled c t := by
  obtain ⟨records, hr⟩ := hs.settled.remembered h
  refine ⟨hs.settled.step h, ?_, ?_, fun client todo sent hstage hphase => ?_⟩
  · rw [hr.desired, hr.history, List.foldl_append, hs.desired]
  · rw [step_books h]
    exact hs.unrevived.run hs.settled.keyed _
  · have hclient {c' : Client} {ce : ClientEvent} {r : Client × Effects}
        (hold : s.stage = .session c') (hstep : c'.step ce = some r)
        (ht : t.stage = .session r.1) : todo <:+ t.services.desired := by
      rw [ht] at hstage
      cases hstage
      rw [services_of_session ht]
      refine exchange_of_client (fun todo sent hp => ?_) hstep hphase
      rw [← services_of_session hold]
      exact hs.exchange c' todo sent hold hp
    cases moves_of_step h with
    | declined hold =>
        rw [show s.stage = .session client from hstage] at hold
        cases hold
    | forgotten | gone | stopped => cases hstage
    | failed | ended => exact absurd hstage (not_session_finish _ _ _ _ _)
    | started hold =>
        cases hstage
        show todo <:+ (Client.start _ _ _ _ _ _).1.services.desired
        obtain ⟨hdesired, hcase⟩ := Client.phase_start s.policy _ _ _ _ _
        rw [hdesired]
        rcases hcase with hreg | ⟨-, hready⟩ | hclosed
        · rw [hreg] at hphase
          cases hphase
          exact List.suffix_refl _
        · rw [hready] at hphase
          cases hphase
        · rw [hphase] at hclosed
          cases hclosed
    | registered hold hstep | unregistered hold hstep | went hold hcmd hstep =>
        exact hclient hold hstep rfl

theorem recalled_init (c : DriveConfig) : Recalled c (init c) where
  settled := settled_init c
  desired := rfl
  unrevived _ before _ h := by cases before <;> cases h
  exchange _ _ _ hstage := by cases hstage

/-- **The desired Services are the acknowledged history.**  In every state of a
run they are the configured ones, with the Service of each committed
acknowledgement appended and each unregistered id deleted, in this order.  A
Session starts by registering exactly these, and goes through them.  A desired
Service whose id was unregistered at some time was begun and then committed
after that. -/
theorem desired_is_history (c : DriveConfig) (es : List DriveEvent)
    (hrun : exec step (init c) es = some s) :
    s.services.desired = s.history.foldl Record.amend c.services ∧
      (∀ e t, s.step e = some t → ∃ records, Remembered s e t records) ∧
      (∀ sessionId correlated t client, s.step (.authenticated sessionId correlated) = some t →
        t.stage = .session client → client.services.desired = s.services.desired ∧
          (client.phase = .registering s.services.desired false ∨
            (s.services.desired = [] ∧ client.phase = .ready) ∨ client.phase.isOpen = false)) ∧
      (∀ client todo sent, s.stage = .session client → client.phase = .registering todo sent →
        todo <:+ s.services.desired) ∧
      ∀ id before after, s.history = before ++ .unregistered id :: after →
        ∀ service ∈ s.services.desired, service.id = id →
          ∃ caller, [.begun caller service, .committed (some caller) service].Sublist after := by
  have hs : Recalled c s :=
    exec_inv_of_step (fun _ _ _ hs h => hs.step h) (recalled_init c) hrun
  refine ⟨hs.desired, fun e t h => hs.settled.remembered h,
    fun sessionId correlated t client h hstage => ?_, hs.exchange,
    fun id before after h => (hs.unrevived id before after h).1⟩
  cases moves_of_step h with
  | @started apart _ _ _ _ hapart =>
      cases hstage
      have hservices : s.services = apart := by
        unfold services
        rw [hapart]
      rw [hservices]
      exact Client.phase_start s.policy sessionId correlated _ _ _

theorem desired_is_history_two_sessions :
    exec step (init smallDrive) twoSessions = some afterTwoSessions ∧
      afterTwoSessions.history.foldl Record.amend [webService] = [mailService] ∧
      afterTwoSessions.services.desired = [mailService] := by
  have hrun : exec step (init smallDrive) twoSessions = some afterTwoSessions :=
    Option.eq_some_of_isSome _
  have hfold : afterTwoSessions.history.foldl Record.amend [webService] = [mailService] := by
    decide +kernel
  exact ⟨hrun, hfold, (desired_is_history smallDrive twoSessions hrun).1.trans hfold⟩

end Drive

end Eggtunnel
