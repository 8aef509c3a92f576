/-
Eggtunnel/Enrol.lean

Enrolment over two FIFO channels, independent of any particular program.

A client asks a server to enter items into a table and to remove them again.
Requests go up and answers come down in order, and at any time the client may
lose interest in a request that is still unanswered.  What the client keeps of
its requests is

* `live`: the request it waits for, for each key;
* `dead`: the keys whose answer it expects to throw away.

An answer that names its key (`keyed`) is matched with `live` and then with
`dead`; in the serial discipline a refusal names no key and goes to whatever
request is live.

The two questions are whether the client can place every answer (`Covered`,
`Refusals`), and whether each answer reaches the caller that asked
(`Attributed`).  The rules below say which moves keep these properties.
-/
import Mathlib.Data.Set.Insert
import Mathlib.Data.List.Nodup
import Mathlib.Logic.Function.Basic

namespace Eggtunnel

namespace Enrol

/-! ### The model -/

/-- A request to enter `item`, made by `caller`. -/
@[ext] structure Request (S C : Type) where
  item : S
  caller : C
  deriving DecidableEq

/-- What goes up. -/
inductive Command (K S C : Type)
  | enter (r : Request S C)
  | leave (k : K)

/-- The client's view, the two channels and the server's table.  `noted` and
`bound` are the addresses the client and the server have on record; `verdicts`
and `told` record what the server decided and what callers were told. -/
structure Enrolment (K S C B E N : Type) where
  live : K → Option (Request S C)
  dead : Set K
  active : K → Option S
  noted : K → List B
  up : List (Command K S C)
  down : List (Request S C × Except E B)
  table : K → Option N
  bound : K → List B
  verdicts : List (Request S C × Except E B)
  told : List (C × Except E B)

/-- What a step does, as far as conditions on schedules look at it. -/
inductive Move (K S C : Type)
  | stutter
  | enter (r : Request S C)
  | forget (k : K)
  | bury (k : K)
  | leave (k : K) (cleared lost : Bool)
  | expire (ks : Set K)
  | settle (lost : Bool)
  | serve
  | refuse (r : Request S C)
  | crash

variable {K S C B E N : Type}

/-- The request a command carries. -/
def Command.request : Command K S C → Option (Request S C)
  | .enter r => some r
  | .leave _ => none

@[simp] theorem Command.request_enter (r : Request S C) :
    (Command.enter r : Command K S C).request = some r := rfl

@[simp] theorem Command.request_leave (k : K) :
    (Command.leave k : Command K S C).request = none := rfl

/-- The command reaches the channel unless its write was lost. -/
def send (lost : Bool) (up : List (Command K S C)) (c : Command K S C) :
    List (Command K S C) :=
  if lost then up else up ++ [c]

@[simp] theorem filterMap_send_leave (lost : Bool) (up : List (Command K S C)) (k : K) :
    (send lost up (.leave k)).filterMap Command.request = up.filterMap Command.request := by
  cases lost <;> simp [send]

/-! ### Outstanding requests -/

/-- The requests whose answer the client has not read, oldest first. -/
def outstanding (a : Enrolment K S C B E N) : List (Request S C) :=
  a.down.map Prod.fst ++ a.up.filterMap Command.request

/-- The keys of the outstanding requests. -/
def keys (key : S → K) (a : Enrolment K S C B E N) : List K :=
  (outstanding a).map fun r => key r.item

section
variable {key : S → K} {a b : Enrolment K S C B E N}

theorem mem_keys {r : Request S C} (hr : r ∈ outstanding a) : key r.item ∈ keys key a :=
  List.mem_map_of_mem hr

/-- The outstanding requests have distinct keys. -/
def Distinct (key : S → K) (a : Enrolment K S C B E N) : Prop := (keys key a).Nodup

/-- Distinct keys tell the requests apart. -/
theorem Distinct.eq_of_key (hd : Distinct key a) {r r' : Request S C} (hr : r ∈ outstanding a)
    (hr' : r' ∈ outstanding a) (h : key r.item = key r'.item) : r = r' :=
  List.inj_on_of_nodup_map hd hr hr' h

theorem head_mem_outstanding {r : Request S C} {v : Except E B}
    {rest : List (Request S C × Except E B)} (hdown : a.down = (r, v) :: rest) :
    r ∈ outstanding a := by
  simp [outstanding, hdown]

/-- The head's key is not the key of any other outstanding request. -/
theorem Distinct.ne_head (hd : Distinct key a) {r : Request S C}
    (hout : outstanding a = r :: outstanding b)
    {r' : Request S C} (hr' : r' ∈ outstanding b) : key r'.item ≠ key r.item := by
  unfold Distinct keys at hd
  rw [hout, List.map_cons, List.nodup_cons] at hd
  intro heq
  exact hd.1 (heq ▸ List.mem_map_of_mem hr')

/-- At most one outstanding request is as good as distinct keys. -/
theorem distinct_of_length_le (hle : (outstanding a).length ≤ 1) : Distinct key a := by
  unfold Distinct keys
  rcases e : outstanding a with - | ⟨r, l⟩
  · simp
  · rw [e, List.length_cons] at hle
    obtain rfl := List.length_eq_zero_iff.mp (show l.length = 0 by omega)
    simp

end

/-! ### The steps -/

variable [DecidableEq K]

section
open Classical

/-- The steps.  `key` and `name` read an item, `serial` says that at most one
request is live and that refusals carry no key. -/
inductive Step (key : S → K) (name : S → N) (serial : Prop) :
    Move K S C → Enrolment K S C B E N → Enrolment K S C B E N → Prop
  | stutter {a} : Step key name serial .stutter a a
  /-- a new request -/
  | enter {a} (r : Request S C) (hlive : a.live (key r.item) = none)
      (hserial : serial → ∀ k, a.live k = none) (hactive : a.active (key r.item) = none) :
      Step key name serial (.enter r) a
        { a with
          live := Function.update a.live (key r.item) (some r)
          dead := a.dead \ {key r.item}
          up := a.up ++ [.enter r] }
  /-- a refused request takes a tombstone with it -/
  | forget {a} (k : K) : Step key name serial (.forget k) a { a with dead := a.dead \ {k} }
  /-- a request that was never sent leaves a tombstone -/
  | bury {a} (k : K) {dead : Set K} (hserial : ¬ serial) (hlive : a.live k = none)
      (hdead : dead ⊆ insert k a.dead) :
      Step key name serial (.bury k) a { a with dead := dead }
  /-- the client gives the key up, whatever it was -/
  | leave {a} (k : K) (cleared lost : Bool) :
      Step key name serial (.leave k cleared lost) a
        { a with
          live := Function.update a.live k none
          dead := if serial ∧ (a.live k).isSome then insert k (if cleared then ∅ else a.dead)
            else a.dead
          active := Function.update a.active k none
          noted := if (a.active k).isSome then Function.update a.noted k [] else a.noted
          up := send lost a.up (.leave k) }
  /-- requests time out -/
  | expire {a} (ks : Set K) (hserial : ¬ serial) :
      Step key name serial (.expire ks) a
        { a with live := fun k => if k ∈ ks then none else a.live k }
  /-- an acceptance reaches its caller -/
  | commit {a} {r r' : Request S C} {b : B} {rest} (hdown : a.down = (r, .ok b) :: rest)
      (hlive : a.live (key r.item) = some r') (lost : Bool) :
      Step key name serial (.settle lost) a
        { a with
          live := Function.update a.live (key r.item) none
          active := Function.update a.active (key r.item) (some r'.item)
          noted := Function.update a.noted (key r.item) (a.noted (key r.item) ++ [b])
          down := rest
          told := a.told ++ [(r'.caller, .ok b)] }
  /-- an acceptance whose caller is gone is undone -/
  | undo {a} {r r' : Request S C} {b : B} {rest} (hdown : a.down = (r, .ok b) :: rest)
      (hlive : a.live (key r.item) = some r') (lost : Bool) :
      Step key name serial (.settle lost) a
        { a with
          live := Function.update a.live (key r.item) none
          down := rest
          up := send lost a.up (.leave (key r.item)) }
  /-- an acceptance that nobody waits for is undone -/
  | undoDead {a} {r : Request S C} {b : B} {rest} (hdown : a.down = (r, .ok b) :: rest)
      (hlive : a.live (key r.item) = none) (hdead : key r.item ∈ a.dead) (lost : Bool) :
      Step key name serial (.settle lost) a
        { a with
          dead := a.dead \ {key r.item}
          down := rest
          up := send lost a.up (.leave (key r.item)) }
  /-- a refusal that names its key -/
  | refused {a} {r r' : Request S C} {e : E} {rest} (hdown : a.down = (r, .error e) :: rest)
      (hserial : ¬ serial) (hlive : a.live (key r.item) = some r') (lost : Bool) :
      Step key name serial (.settle lost) a
        { a with
          live := Function.update a.live (key r.item) none
          down := rest
          told := a.told ++ [(r'.caller, .error e)] }
  | refusedDead {a} {r : Request S C} {e : E} {rest} (hdown : a.down = (r, .error e) :: rest)
      (hserial : ¬ serial) (hlive : a.live (key r.item) = none) (hdead : key r.item ∈ a.dead)
      (lost : Bool) :
      Step key name serial (.settle lost) a
        { a with dead := a.dead \ {key r.item}, down := rest }
  /-- a refusal without a key goes to the live request -/
  | refusedSlot {a} {r r' : Request S C} {k : K} {e : E} {rest}
      (hdown : a.down = (r, .error e) :: rest) (hserial : serial) (hlive : a.live k = some r')
      (lost : Bool) :
      Step key name serial (.settle lost) a
        { a with
          live := Function.update a.live k none
          down := rest
          told := a.told ++ [(r'.caller, .error e)] }
  /-- the server enters the item -/
  | accept {a} {r : Request S C} {b : B} {rest} (hup : a.up = .enter r :: rest)
      (htable : a.table (key r.item) = none) :
      Step key name serial .serve a
        { a with
          up := rest
          down := a.down ++ [(r, .ok b)]
          table := Function.update a.table (key r.item) (some (name r.item))
          bound := Function.update a.bound (key r.item) (a.bound (key r.item) ++ [b])
          verdicts := a.verdicts ++ [(r, .ok b)] }
  | refuse {a} {r : Request S C} {e : E} {rest} (hup : a.up = .enter r :: rest) :
      Step key name serial (.refuse r) a
        { a with
          up := rest
          down := a.down ++ [(r, .error e)]
          verdicts := a.verdicts ++ [(r, .error e)] }
  /-- the server removes the item -/
  | remove {a} {k : K} {rest} (hup : a.up = .leave k :: rest) :
      Step key name serial .serve a
        { a with
          up := rest
          table := Function.update a.table k none
          bound := if (a.table k).isSome then Function.update a.bound k [] else a.bound }
  /-- the server is gone; what it held is gone with it -/
  | crash {a} {table : K → Option N} {bound : K → List B} :
      Step key name serial .crash a { a with table := table, bound := bound }

end

variable {key : S → K} {name : S → N} {serial : Prop}
variable {a b : Enrolment K S C B E N} {m : Move K S C}

/-- **What a step does to the outstanding requests**: a new one joins at the
end, an answer takes the oldest, nothing else changes them. -/
theorem outstanding_step (h : Step key name serial m a b) :
    (∃ r, m = .enter r ∧ outstanding b = outstanding a ++ [r]) ∨
    (∃ lost r v rest, m = .settle lost ∧ a.down = (r, v) :: rest ∧
      outstanding a = r :: outstanding b) ∨
    ((∀ r, m ≠ .enter r) ∧ outstanding b = outstanding a) := by
  cases h with
  | enter r => exact .inl ⟨r, rfl, by simp [outstanding]⟩
  | commit hdown hlive lost | undo hdown hlive lost | undoDead hdown hlive hdead lost
  | refused hdown hserial hlive lost | refusedDead hdown hserial hlive hdead lost
  | refusedSlot hdown hserial hlive lost =>
      exact .inr (.inl ⟨lost, _, _, _, rfl, hdown, by simp [outstanding, hdown]⟩)
  | accept hup | refuse hup | remove hup =>
      refine .inr (.inr ⟨by simp, ?_⟩)
      simp [outstanding, hup, List.filterMap_cons]
  | leave k cleared lost => exact .inr (.inr ⟨by simp, by simp [outstanding]⟩)
  | stutter | forget | bury | expire | crash => exact .inr (.inr ⟨by simp, rfl⟩)

/-! ### What holds in every run -/

/-- A live request carries its own key, is still outstanding and has no
tombstone; in the serial discipline there is at most one; answers on their way
were decided by the server. -/
structure Owned (key : S → K) (serial : Prop) (a : Enrolment K S C B E N) : Prop where
  key_live : ∀ {k r}, a.live k = some r → key r.item = k
  mem_live : ∀ {k r}, a.live k = some r → r ∈ outstanding a
  single : serial → ∀ {k k' r r'}, a.live k = some r → a.live k' = some r' → k = k'
  apart : ∀ {k r}, a.live k = some r → k ∉ a.dead
  decided : ∀ p ∈ a.down, p ∈ a.verdicts

/-- A request is live only by having been so before, or by being entered. -/
theorem live_step (h : Step key name serial m a b) {k : K} {r : Request S C}
    (hk : b.live k = some r) : a.live k = some r ∨ (m = .enter r ∧ k = key r.item) := by
  cases h with
  | enter r' =>
      dsimp only at hk
      rcases eq_or_ne k (key r'.item) with rfl | hne
      · rw [Function.update_self] at hk
        obtain rfl := Option.some.inj hk
        exact .inr ⟨rfl, rfl⟩
      · rw [Function.update_of_ne hne] at hk
        exact .inl hk
  | leave | commit | undo | refused | refusedSlot =>
      refine .inl ?_
      simp only [Function.update_apply] at hk
      split_ifs at hk
      exact hk
  | expire ks =>
      refine .inl ?_
      simp only at hk
      split_ifs at hk
      exact hk
  | stutter | forget | bury | undoDead | refusedDead | accept | refuse | remove | crash =>
      exact .inl hk

/-- Once a request is answered it is live no longer. -/
theorem live_ne_head (ho : Owned key serial a) {lost : Bool}
    (h : Step key name serial (.settle lost) a b) {r : Request S C} {v : Except E B}
    {rest : List (Request S C × Except E B)} (hdown : a.down = (r, v) :: rest)
    {k : K} {r' : Request S C} (hk : b.live k = some r') : r' ≠ r := by
  rintro rfl
  have hka : a.live k = some r' := (live_step h hk).resolve_right (by simp)
  have hkey : key r'.item = k := ho.key_live hka
  subst hkey
  cases h with
  | commit hd | undo hd | refused hd =>
      obtain rfl : r' = _ := congrArg Prod.fst (List.cons.inj (hdown.symm.trans hd)).1
      simp at hk
  | undoDead hd hlive | refusedDead hd _ hlive =>
      obtain rfl : r' = _ := congrArg Prod.fst (List.cons.inj (hdown.symm.trans hd)).1
      rw [hlive] at hka
      cases hka
  | refusedSlot hd hserial hlive =>
      obtain rfl := ho.single hserial hlive hka
      simp at hk

/-- A key is dead only by having been so before, by being buried, or by being
given up. -/
theorem dead_step (h : Step key name serial m a b) {k : K} (hk : k ∈ b.dead) :
    k ∈ a.dead ∨ (m = .bury k ∧ a.live k = none) ∨
      (∃ cleared lost, m = .leave k cleared lost ∧ (a.live k).isSome) := by
  cases h with
  | enter | forget | undoDead | refusedDead => exact .inl hk.1
  | bury k' _ hlive hdead =>
      rcases hdead hk with rfl | hk
      · exact .inr (.inl ⟨rfl, hlive⟩)
      · exact .inl hk
  | leave k' cleared lost =>
      dsimp only at hk
      split_ifs at hk with hs hc
      · rcases hk with rfl | hk
        · exact .inr (.inr ⟨_, _, rfl, hs.2⟩)
        · cases hk
      · rcases hk with rfl | hk
        · exact .inr (.inr ⟨_, _, rfl, hs.2⟩)
        · exact .inl hk
      · exact .inl hk
  | stutter | expire | commit | undo | refused | refusedSlot | accept | refuse | remove | crash =>
      exact .inl hk

/-- Answers on their way stay decided. -/
theorem decided_step (hd : ∀ p ∈ a.down, p ∈ a.verdicts) (h : Step key name serial m a b) :
    ∀ p ∈ b.down, p ∈ b.verdicts := by
  intro p hp
  cases h with
  | commit hdown | undo hdown | undoDead hdown | refused hdown | refusedDead hdown
  | refusedSlot hdown => exact hd p (hdown ▸ List.mem_cons_of_mem _ hp)
  | accept | refuse =>
      rcases List.mem_append.mp hp with hp | hp
      · exact List.mem_append_left _ (hd p hp)
      · exact List.mem_append_right _ hp
  | stutter | enter | forget | bury | leave | expire | remove | crash => exact hd p hp

theorem Owned.step (ho : Owned key serial a) (h : Step key name serial m a b) :
    Owned key serial b where
  key_live hk := by
    rcases live_step h hk with hk | ⟨-, rfl⟩
    · exact ho.key_live hk
    · rfl
  mem_live {k r} hk := by
    rcases outstanding_step h with ⟨r', hm, hout⟩ | ⟨lost, r', v, rest, hm, hdown, hout⟩ | ⟨hm, hout⟩
    · rw [hout, List.mem_append, List.mem_singleton]
      rcases live_step h hk with hk | ⟨hr, -⟩
      · exact .inl (ho.mem_live hk)
      · rw [hm] at hr
        cases hr
        exact .inr rfl
    · -- the answered request is the only one to go, and it is no longer live
      subst hm
      have hka := (live_step h hk).resolve_right (by simp)
      have hmem := ho.mem_live hka
      rw [hout, List.mem_cons] at hmem
      exact hmem.resolve_left (live_ne_head ho h hdown hk)
    · rw [hout]
      exact ho.mem_live ((live_step h hk).resolve_right fun hr => hm r hr.1)
  single hserial {k k' r r'} hk hk' := by
    rcases live_step h hk with hka | ⟨hr, rfl⟩
    · rcases live_step h hk' with hka' | ⟨hr', rfl⟩
      · exact ho.single hserial hka hka'
      · subst hr'
        cases h with
        | enter _ hlive hs => rw [hs hserial k] at hka; cases hka
    · rcases live_step h hk' with hka' | ⟨hr', rfl⟩
      · subst hr
        cases h with
        | enter _ hlive hs => rw [hs hserial k'] at hka'; cases hka'
      · rw [hr] at hr'
        cases hr'
        rfl
  apart {k r} hk := by
    intro hdead
    rcases dead_step h hdead with hda | ⟨rfl, hlive⟩ | ⟨cleared, lost, rfl, -⟩
    · rcases live_step h hk with hka | ⟨rfl, rfl⟩
      · exact ho.apart hka hda
      · cases h with
        | enter => exact hdead.2 rfl
    · rcases live_step h hk with hka | ⟨hr, -⟩
      · rw [hlive] at hka
        cases hka
      · cases hr
    · cases h with
      | leave => simp at hk
  decided := decided_step ho.decided h

/-! ### Attribution -/

/-- Each caller was told what the server decided on that caller's own
request. -/
def Attributed (a : Enrolment K S C B E N) : Prop :=
  ∀ p ∈ a.told, ∃ r : Request S C, r.caller = p.1 ∧ (r, p.2) ∈ a.verdicts

/-- An answer that reaches a live request answers that request. -/
def Matched (key : S → K) (serial : Prop) (a : Enrolment K S C B E N) : Prop :=
  ∀ {r v rest k r'}, a.down = (r, v) :: rest → a.live k = some r' →
    (serial ∨ key r.item = k) → r' = r

omit [DecidableEq K] in
theorem matched_of_distinct (ho : Owned key serial a) (hd : Distinct key a)
    (hserial : ¬ serial) : Matched key serial a := by
  intro r v rest k r' hdown hlive hkey
  have hk : key r.item = k := hkey.resolve_left hserial
  exact hd.eq_of_key (ho.mem_live hlive) (head_mem_outstanding hdown)
    ((ho.key_live hlive).trans hk.symm)

/-- **Matched answers keep the attribution.** -/
theorem Attributed.step (ha : Attributed a) (ho : Owned key serial a)
    (hm : Matched key serial a) (h : Step key name serial m a b) : Attributed b := by
  -- an answer on its way was decided on the request it answers
  have htell {r r' : Request S C} {v : Except E B} {rest k} (hdown : a.down = (r, v) :: rest)
      (hlive : a.live k = some r') (hk : serial ∨ key r.item = k) :
      ∀ p ∈ a.told ++ [(r'.caller, v)], ∃ q : Request S C, q.caller = p.1 ∧
        (q, p.2) ∈ a.verdicts := by
    intro p hp
    rcases List.mem_append.mp hp with hp | hp
    · exact ha p hp
    · rw [List.mem_singleton.mp hp]
      obtain rfl := hm hdown hlive hk
      exact ⟨r', rfl, ho.decided _ (hdown ▸ List.mem_cons_self)⟩
  cases h with
  | commit hdown hlive => exact htell hdown hlive (.inr rfl)
  | refused hdown _ hlive => exact htell hdown hlive (.inr rfl)
  | refusedSlot hdown hserial hlive => exact htell hdown hlive (.inl hserial)
  | accept | refuse =>
      intro p hp
      obtain ⟨r, hr, hv⟩ := ha p hp
      exact ⟨r, hr, List.mem_append_left _ hv⟩
  | stutter | enter | forget | bury | leave | expire | undo | undoDead | refusedDead | remove
  | crash => exact ha

/-- Distinctness is lost only by entering a key that is still outstanding. -/
theorem Distinct.step (hd : Distinct key a) (h : Step key name serial m a b)
    (hnew : ∀ r, m = .enter r → key r.item ∉ keys key a) : Distinct key b := by
  unfold Distinct keys at *
  rcases outstanding_step h with ⟨r, rfl, hout⟩ | ⟨lost, r, v, rest, rfl, -, hout⟩ | ⟨-, hout⟩
  · rw [hout, List.map_append, List.nodup_append]
    refine ⟨hd, by simp, ?_⟩
    intro x hx y hy hxy
    rw [List.map_singleton, List.mem_singleton] at hy
    exact hnew r rfl (hy ▸ hxy ▸ hx)
  · rw [hout, List.map_cons, List.nodup_cons] at hd
    exact hd.2
  · rw [hout]
    exact hd

/-! ### Placing every answer -/

/-- Every outstanding request is the live one of its key, or in the serial
discipline its key is dead. -/
def Covered (key : S → K) (serial : Prop) (a : Enrolment K S C B E N) : Prop :=
  ∀ r ∈ outstanding a, a.live (key r.item) = some r ∨ (serial ∧ key r.item ∈ a.dead)

/-- In the serial discipline a refusal on its way belongs to the live request. -/
def Refusals (key : S → K) (serial : Prop) (a : Enrolment K S C B E N) : Prop :=
  serial → ∀ {r e}, (r, .error e) ∈ a.down → a.live (key r.item) = some r

/-- A serial refusal that is about to be read belongs to the live request. -/
def RefusalMatched (serial : Prop) (a : Enrolment K S C B E N) : Prop :=
  serial → ∀ {r e rest k r'}, a.down = (r, .error e) :: rest → a.live k = some r' → r' = r

/-- The moves after which the client can still place every answer. -/
def Placeable (key : S → K) (serial : Prop) (a : Enrolment K S C B E N) : Move K S C → Prop
  | .enter r => key r.item ∉ keys key a
  | .forget k => k ∈ a.dead → k ∉ keys key a
  | .leave k cleared _ => (a.live k).isSome →
      serial ∧ (cleared = true → ∀ r ∈ outstanding a, key r.item = k)
  | .expire ks => ∀ k ∈ ks, a.live k = none
  | _ => True

/-- **Placeable moves keep every outstanding request covered.** -/
theorem Covered.step (hc : Covered key serial a) (hd : Distinct key a)
    (hmatch : RefusalMatched serial a) (hsafe : Placeable key serial a m)
    (h : Step key name serial m a b) : Covered key serial b := by
  intro x hx
  rcases outstanding_step h with ⟨r, hm, hout⟩ | ⟨lost, r, v, rest, hm, hdown, hout⟩ | ⟨hm, hout⟩
  · -- a new request is live, and its key was free
    subst hm
    cases h with
    | enter =>
        rw [hout, List.mem_append, List.mem_singleton] at hx
        dsimp only
        rcases hx with hx | rfl
        · have hne : key x.item ≠ key r.item := fun heq => hsafe (heq ▸ mem_keys hx)
          rw [Function.update_of_ne hne]
          exact (hc x hx).imp id fun hxd => ⟨hxd.1, hxd.2, hne⟩
        · exact .inl (Function.update_self _ _ _)
  · -- only the answered request loses its cover
    have hne := hd.ne_head hout hx
    have hcov := hc x (hout ▸ List.mem_cons_of_mem _ hx)
    subst hm
    cases h with
    | commit hdn | undo hdn | refused hdn =>
        obtain rfl : r = _ := congrArg Prod.fst (List.cons.inj (hdown.symm.trans hdn)).1
        dsimp only
        rwa [Function.update_of_ne hne]
    | undoDead hdn | refusedDead hdn =>
        obtain rfl : r = _ := congrArg Prod.fst (List.cons.inj (hdown.symm.trans hdn)).1
        exact hcov.imp id fun hxd => ⟨hxd.1, hxd.2, hne⟩
    | @refusedSlot _ r₁ r' k e _ hdn hserial hlive =>
        obtain rfl : r = r₁ := congrArg Prod.fst (List.cons.inj (hdown.symm.trans hdn)).1
        obtain rfl := hmatch hserial hdn hlive
        dsimp only
        rcases eq_or_ne (key x.item) k with rfl | hk
        · refine .inr (hcov.resolve_left fun hxl => ?_)
          rw [hlive] at hxl
          obtain rfl := Option.some.inj hxl
          exact hne rfl
        · rwa [Function.update_of_ne hk]
  · rw [hout] at hx
    have hcov := hc x hx
    cases h with
    | enter r => exact absurd rfl (hm r)
    | forget k =>
        exact hcov.imp id fun hxd => ⟨hxd.1, hxd.2, fun heq => hsafe (heq ▸ hxd.2) (heq ▸ mem_keys hx)⟩
    | bury k hserial => exact .inl (hcov.resolve_right fun hxd => hserial hxd.1)
    | leave k cleared lost =>
        dsimp only
        rcases hk : a.live k with - | r
        · -- nothing was live under the key
          refine hcov.imp (fun hl => ?_) fun hxd => ?_
          · rwa [Function.update_of_ne (fun heq => by rw [heq, hk] at hl; cases hl)]
          · simpa using hxd
        · obtain ⟨hserial, hclear⟩ := hsafe (by rw [hk]; rfl)
          rcases eq_or_ne (key x.item) k with rfl | hne
          · exact .inr ⟨hserial, by simp [hserial]⟩
          · rw [Function.update_of_ne hne]
            refine hcov.imp id fun hxd => ⟨hserial, ?_⟩
            cases cleared with
            | true => exact absurd (hclear rfl x hx) hne
            | false => simpa [hserial, hne] using hxd.2
    | expire ks hserial =>
        refine .inl ?_
        have hl := hcov.resolve_right fun hxd => hserial hxd.1
        dsimp only
        rw [if_neg fun hks => by rw [hsafe _ hks] at hl; cases hl]
        exact hl
    | stutter | accept | refuse | remove | crash => exact hcov
    | commit hdn | undo hdn | undoDead hdn | refused hdn | refusedDead hdn | refusedSlot hdn =>
        have hlen := congrArg List.length hout
        simp [outstanding, hdn] at hlen

/-- The moves after which every serial refusal still finds its request live. -/
def Heeded (key : S → K) (serial : Prop) (a : Enrolment K S C B E N) : Move K S C → Prop
  | .leave k _ _ => serial → ∀ {r e}, (r, .error e) ∈ a.down → key r.item ≠ k
  | .refuse r => serial → a.live (key r.item) = some r
  | _ => True

omit [DecidableEq K] in
theorem RefusalMatched.of_refusals (ho : Owned key serial a) (hr : Refusals key serial a) :
    RefusalMatched serial a := by
  intro hserial r e rest k r' hdown hlive
  have hl := hr hserial (hdown ▸ List.mem_cons_self)
  obtain rfl := ho.single hserial hlive hl
  rw [hlive] at hl
  exact Option.some.inj hl

/-- **Heeded moves keep the serial refusals with their requests.** -/
theorem Refusals.step (hr : Refusals key serial a) (ho : Owned key serial a)
    (hd : Distinct key a) (hheed : Heeded key serial a m) (h : Step key name serial m a b) :
    Refusals key serial b := by
  intro hserial x e hx
  -- an answer behind the one that was read concerns another key
  have hrest {r v} {rest : List (Request S C × Except E B)} (hdown : a.down = (r, v) :: rest)
      (hmem : (x, .error e) ∈ rest) :
      key x.item ≠ key r.item ∧ a.live (key x.item) = some x := by
    refine ⟨?_, hr hserial (hdown ▸ List.mem_cons_of_mem _ hmem)⟩
    unfold Distinct keys outstanding at hd
    rw [hdown, List.map_cons, List.cons_append, List.map_cons, List.nodup_cons] at hd
    intro heq
    refine hd.1 (heq ▸ List.mem_map_of_mem (List.mem_append_left _ ?_))
    exact List.mem_map.mpr ⟨_, hmem, rfl⟩
  cases h with
  | enter r hlive hs =>
      have hl := hr hserial hx
      rw [hs hserial] at hl
      cases hl
  | leave k =>
      dsimp only
      rw [Function.update_of_ne (hheed hserial hx)]
      exact hr hserial hx
  | expire ks hs => exact absurd hserial hs
  | commit hdown | undo hdown =>
      obtain ⟨hne, hl⟩ := hrest hdown hx
      dsimp only
      rwa [Function.update_of_ne hne]
  | undoDead hdown => exact (hrest hdown hx).2
  | refused _ hs | refusedDead _ hs => exact absurd hserial hs
  | refusedSlot hdown _ hlive =>
      -- the slot held the refused request, so no other refusal can be live
      obtain ⟨hne, hl⟩ := hrest hdown hx
      obtain rfl := RefusalMatched.of_refusals ho hr hserial hdown hlive
      obtain rfl := ho.single hserial hlive hl
      exact absurd (ho.key_live hlive) (Ne.symm hne)
  | accept =>
      rcases List.mem_append.mp hx with hx | hx
      · exact hr hserial hx
      · simp at hx
  | refuse hup =>
      rcases List.mem_append.mp hx with hx | hx
      · exact hr hserial hx
      · obtain ⟨rfl, -⟩ := Prod.mk.inj (List.mem_singleton.mp hx)
        exact hheed hserial
  | stutter | forget | bury | remove | crash => exact hr hserial hx

/-! ### Single flight -/

/-- One request at a time, with every answer placed and attributed. -/
structure SingleFlight (key : S → K) (serial : Prop) (a : Enrolment K S C B E N) : Prop where
  owned : Owned key serial a
  covered : Covered key serial a
  single : (outstanding a).length ≤ 1
  attributed : Attributed a

omit [DecidableEq K] in
/-- With a single outstanding request, the live one is all there is. -/
theorem SingleFlight.eq_live (hf : SingleFlight key serial a) {k : K} {r r' : Request S C}
    (hlive : a.live k = some r) (hr' : r' ∈ outstanding a) : r' = r := by
  have hr := hf.owned.mem_live hlive
  have hle := hf.single
  rcases e : outstanding a with - | ⟨x, l⟩
  · rw [e] at hr
    cases hr
  · rw [e, List.length_cons] at hle
    obtain rfl := List.length_eq_zero_iff.mp (show l.length = 0 by omega)
    rw [e, List.mem_singleton] at hr hr'
    rw [hr, hr']

omit [DecidableEq K] in
/-- With nothing live and nothing dead, nothing is outstanding. -/
theorem SingleFlight.eq_nil (hf : SingleFlight key serial a) (hlive : ∀ k, a.live k = none)
    (hdead : a.dead = ∅) : outstanding a = [] := by
  rw [List.eq_nil_iff_forall_not_mem]
  intro x hx
  rcases hf.covered x hx with hl | ⟨-, hd⟩
  · rw [hlive] at hl
    cases hl
  · rw [hdead] at hd
    exact hd

/-- Such a client can place every answer, if it asks only while nothing is
dead. -/
theorem SingleFlight.placeable (hf : SingleFlight key serial a) (hserial : serial)
    (henter : ∀ r, m = .enter r → a.dead = ∅) (hforget : ∀ k, m = .forget k → a.dead = ∅)
    (h : Step key name serial m a b) : Placeable key serial a m := by
  cases h with
  | enter r _ hidle =>
      intro hmem
      rw [keys, hf.eq_nil (hidle hserial) (henter r rfl)] at hmem
      cases hmem
  | forget k =>
      intro hdead
      rw [hforget k rfl] at hdead
      cases hdead
  | leave k cleared lost =>
      intro hsome
      obtain ⟨r, hlive⟩ := Option.isSome_iff_exists.mp hsome
      refine ⟨hserial, fun _ r' hr' => ?_⟩
      rw [hf.eq_live hlive hr']
      exact hf.owned.key_live hlive
  | expire ks hns => exact absurd hserial hns
  | stutter | bury | commit | undo | undoDead | refused | refusedDead | refusedSlot | accept
  | refuse | remove | crash => trivial

/-- **A serial client that asks only while nothing is dead stays single-flight.** -/
theorem SingleFlight.step (hf : SingleFlight key serial a) (hserial : serial)
    (henter : ∀ r, m = .enter r → a.dead = ∅) (hforget : ∀ k, m = .forget k → a.dead = ∅)
    (h : Step key name serial m a b) : SingleFlight key serial b where
  owned := hf.owned.step h
  covered := by
    refine hf.covered.step (distinct_of_length_le hf.single) ?_
      (hf.placeable hserial henter hforget h) h
    intro _ r e rest k r' hdown hlive
    exact (hf.eq_live hlive (head_mem_outstanding hdown)).symm
  single := by
    rcases outstanding_step h with ⟨r, rfl, hout⟩ | ⟨lost, r, v, rest, rfl, -, hout⟩ | ⟨-, hout⟩
    · cases h with
      | enter _ _ hidle =>
          rw [hout, hf.eq_nil (hidle hserial) (henter r rfl)]
          rfl
    · have hlen := congrArg List.length hout
      have hle := hf.single
      rw [List.length_cons] at hlen
      omega
    · rw [hout]
      exact hf.single
  attributed := by
    refine hf.attributed.step hf.owned ?_ h
    intro r v rest k r' hdown hlive _
    exact (hf.eq_live hlive (head_mem_outstanding hdown)).symm

end Enrol

end Eggtunnel
