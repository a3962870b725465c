import AgentColab.Approvals.Service
import AgentColab.Transaction.Invariant

/-!
# What an approval call knows

The monitor of the approval services. What matters is the grant that a call has locked: its row, the
keys that were looked up in vain, and the number of its uses. A use is taken in two steps, the row
of the ledger and the status; between the two the call may not end.
-/

namespace AgentColab.Approvals

open AgentColab Transaction List Option
open Prog (conforms_do bindPost_ok)

/-- What a call has learned of a grant whose row it has locked. -/
structure HeldGrant where
  grant : Grant
  /-- Keys that are not in the ledger. -/
  absent : List String := []
  used : Option ℕ := none
  /-- Whether a use has been taken whose status is still to be written. -/
  taken : Bool := false

structure ApprovalKnown where
  /-- The latest reading of the clock. -/
  now : Option Time := none
  held : ℕ → Option HeldGrant := fun _ ↦ none
  /-- The consumptions found by their keys, and the keys looked up in vain. -/
  found : List (ℕ × String × ℕ) := []
  missed : List (ℕ × String) := []
  /-- Ids that no grant has. -/
  gone : List ℕ := []
  /-- Whether a statement may have changed something. -/
  wrote : Bool := false

namespace ApprovalKnown

/-- Learn something about a grant that is held. -/
def learn (m : ApprovalKnown) (aid : ℕ) (f : HeldGrant → HeldGrant) : ApprovalKnown :=
  { m with held := Function.update m.held aid ((m.held aid).map f) }

def hold (m : ApprovalKnown) (g : Grant) : ApprovalKnown :=
  { m with held := Function.update m.held g.approvalId (some ((m.held g.approvalId).getD { grant := g })) }

def next (m : ApprovalKnown) : (o : Op) → Res o → ApprovalKnown
  | .now, t => { m with now := some t }
  | .loadGrant _ true, some g => m.hold g
  | .loadGrant aid _, none => { m with gone := aid :: m.gone }
  | .insertGrant row, .ok aid => { m.hold (row aid) with wrote := true }
  | .findConsumption aid key, none =>
    { m.learn aid fun h ↦ { h with absent := key :: h.absent } with
      missed := (aid, key) :: m.missed }
  | .findConsumption aid key, some eventId => { m with found := (aid, key, eventId) :: m.found }
  | .countConsumptions aid, used => m.learn aid fun h ↦ { h with used := some used }
  | .insertConsumption row, .ok () =>
    { m.learn row.approvalId fun h ↦ { h with
        absent := []
        used := h.used.map (· + 1)
        taken := true } with wrote := true }
  | .setStatus aid status seq, () =>
    { m.learn aid fun h ↦ { h with
        grant := { h.grant with status := status, aggregateSeq := seq }
        taken := false } with wrote := true }
  | .insertDecision _, .ok () => { m with wrote := true }
  | .append _, .ok _ => { m with wrote := true }
  | .upsertProjection _ _, () => { m with wrote := true }
  | .setAliases _, () => { m with wrote := true }
  | _, _ => m

/-- A new grant is pending and allows a use, if it counts its uses at all. -/
structure NewGrant (row : ℕ → Grant) : Prop where
  id : ∀ n, (row n).approvalId = n
  status : ∀ n, (row n).status = .pending
  maxUses : ∀ n k, (row n).maxUses = some k → 0 < k

structure MayTake (m : ApprovalKnown) (h : HeldGrant) (row : ConsumptionRow) : Prop where
  held : m.held row.approvalId = some h
  usable : ∃ t, m.now = some t ∧ h.grant.usableAt t
  subject : row.consumedFor = h.grant.subject
  absent : row.consumptionKey ∈ h.absent
  used : ∃ used, h.used = some used ∧ ∀ k, h.grant.maxUses = some k → (used : ℤ) < k
  free : h.taken = false

/-- What a call knows when it writes a status: it completes the use that it has taken, or the
status is neither `CONSUMED` before nor after. -/
structure MaySet (h : HeldGrant) (status : ApprovalStatus) : Prop where
  taken : h.taken = true → ∃ used, h.used = some used ∧
    status = statusAfterConsumption used h.grant.maxUses
  free : h.taken = false → h.grant.status ≠ .consumed ∧ status ≠ .consumed

def may (m : ApprovalKnown) : Op → Prop
  | .insertGrant row => NewGrant row
  | .insertConsumption row => ∃ h, m.MayTake h row
  | .setStatus aid status _ => ∃ h, m.held aid = some h ∧ MaySet h status
  | _ => True

/-- A locked grant is read as it is known, and a key that was looked up in vain is not in the way. -/
def ok (m : ApprovalKnown) : (o : Op) → Res o → Prop
  | .loadGrant aid _, r => ∀ g, r = some g → g.approvalId = aid ∧
      ∀ h, m.held aid = some h → g = h.grant
  | .insertConsumption _, r => r = .ok ()
  | _, _ => True

end ApprovalKnown

def approvalMonitor : Monitor Res ApprovalKnown where
  may := ApprovalKnown.may
  ok := ApprovalKnown.ok
  next := ApprovalKnown.next

/-- No use is left without its status. -/
def ApprovalKnown.Complete (m : ApprovalKnown) : Prop :=
  ∀ aid h, m.held aid = some h → h.taken = false

/-- How a consumption may end: with the row that has its key; or with a row of its own or an error,
having found neither the key nor, in the last case, the grant. -/
inductive ApprovalKnown.Consumed (m : ApprovalKnown) (c : ConsumeApproval) :
    Except ApprovalError Outcome → Prop where
  | replayed {h : HeldGrant} {used eventId : ℕ}
      (found : (c.approvalId, c.consumptionKey, eventId) ∈ m.found)
      (held : m.held c.approvalId = some h) (counted : h.used = some used)
      (clean : m.wrote = false) :
      m.Consumed c (.ok (.consumed c.approvalId c.consumptionKey used h.grant.status eventId true))
  | taken {used eventId : ℕ} {status : ApprovalStatus}
      (missed : (c.approvalId, c.consumptionKey) ∈ m.missed) :
      m.Consumed c (.ok (.consumed c.approvalId c.consumptionKey used status eventId false))
  | failed {e : ApprovalError} (missed : c.approvalId ∈ m.gone ∨
      (c.approvalId, c.consumptionKey) ∈ m.missed) : m.Consumed c (.error e)

def ApprovalKnown.Ends (m : ApprovalKnown) (call : ApprovalCall)
    (x : Except ApprovalError Outcome) : Prop :=
  m.Complete ∧ ∀ c, call = .consume c → m.Consumed c x

/-! ## Conformance -/

section Conformance

variable {α : Type} {m : ApprovalKnown} {aid : ℕ}

/-- Conformance to the monitor of the approval services. -/
abbrev Body.Conforms (p : Body α) (Q : Except ApprovalError α → ApprovalKnown → Prop)
    (m : ApprovalKnown) : Prop :=
  Prog.Conforms approvalMonitor Q p m

/-- A grant that is held, with no use waiting for its status. -/
def ApprovalKnown.Knows (m : ApprovalKnown) (aid : ℕ) (g : Grant) : Prop :=
  ∃ h, m.held aid = some h ∧ h.grant = g ∧ h.taken = false

variable {f : HeldGrant → HeldGrant} {aid' eventId : ℕ} {g : Grant}
    {actor key reasonCode scope : String} {p : Payload}
    {Q : Except ApprovalError Unit → ApprovalKnown → Prop} {status : ApprovalStatus} {now : Time}
    {r : RequestApproval} {d : DecideApproval} {prior : List String} {decision : Decision}
    {approver : PrincipalInfo} {c : ConsumeApproval}

theorem held_learn_self : (m.learn aid f).held aid = (m.held aid).map f := Function.update_self ..

theorem held_learn_of_ne (h : aid' ≠ aid) :
    (m.learn aid f).held aid' = m.held aid' := Function.update_of_ne h ..

theorem held_hold_self :
    (m.hold g).held g.approvalId = some ((m.held g.approvalId).getD { grant := g }) :=
  Function.update_self ..

theorem held_hold_of_ne (h : aid ≠ g.approvalId) :
    (m.hold g).held aid = m.held aid := Function.update_of_ne h ..

theorem ApprovalKnown.Complete.learn (hm : m.Complete)
    (hf : ∀ h, h.taken = false → (f h).taken = false) : (m.learn aid f).Complete := by
  intro aid' h hh
  by_cases haid : aid' = aid
  · subst haid
    rw [held_learn_self, map_eq_some_iff] at hh
    obtain ⟨h₀, hh₀, rfl⟩ := hh
    exact hf h₀ (hm _ h₀ hh₀)
  · rw [held_learn_of_ne haid] at hh
    exact hm aid' h hh

theorem ApprovalKnown.Complete.hold (hm : m.Complete) (g : Grant) : (m.hold g).Complete := by
  intro aid' h hh
  by_cases haid : aid' = g.approvalId
  · subst haid
    rw [held_hold_self, some.injEq] at hh
    subst hh
    cases hheld : m.held g.approvalId with
    | none => rfl
    | some h₀ => exact hm _ h₀ hheld
  · rw [held_hold_of_ne haid] at hh
    exact hm aid' h hh

theorem ApprovalKnown.Knows.learn (h : m.Knows aid' g)
    (hf : ∀ h, (f h).grant = h.grant ∧ (f h).taken = h.taken) : (m.learn aid f).Knows aid' g := by
  obtain ⟨h₀, hh₀, rfl, htaken⟩ := h
  by_cases haid : aid' = aid
  · subst haid
    refine ⟨f h₀, ?_, (hf h₀).1, (hf h₀).2.trans htaken⟩
    rw [held_learn_self, hh₀, map_some]
  · exact ⟨h₀, (held_learn_of_ne haid).trans hh₀, rfl, htaken⟩

theorem ApprovalKnown.Complete.knows_hold (hm : m.Complete) (hid : g.approvalId = aid)
    (hg : ∀ h, m.held aid = some h → g = h.grant) : (m.hold g).Knows aid g := by
  subst hid
  cases hheld : m.held g.approvalId with
  | none =>
    refine ⟨{ grant := g }, ?_, rfl, rfl⟩
    rw [held_hold_self, hheld, getD_none]
  | some h =>
    refine ⟨h, ?_, (hg h hheld).symm, hm _ h hheld⟩
    rw [held_hold_self, hheld, getD_some]

theorem ask_conforms {o : Op} {Q : Except ApprovalError (Res o) → ApprovalKnown → Prop}
    (hmay : m.may o) (h : ∀ r, m.ok o r → Q (.ok r) (m.next o r)) :
    Body.Conforms (ask o) Q m := .issue hmay h

theorem orRaise_conforms {x : Except ApprovalError α} {Q : Except ApprovalError α → ApprovalKnown → Prop}
    (herr : ∀ e, x = .error e → Q (.error e) m) (hok : ∀ a, x = .ok a → Q (.ok a) m) :
    Body.Conforms (orRaise x) Q m := by
  cases x with
  | error e => exact .raise (herr e rfl)
  | ok a => exact .ret (hok a rfl)

theorem loadGrant_conforms {forUpdate : Bool} {Q : Except ApprovalError Grant → ApprovalKnown → Prop}
    (herr : ∀ e, Q (.error e) { m with gone := aid :: m.gone })
    (hok : ∀ g, g.approvalId = aid → (∀ h, m.held aid = some h → g = h.grant) →
      Q (.ok g) (if forUpdate then m.hold g else m)) :
    Body.Conforms (loadGrant aid forUpdate) Q m := by
  refine conforms_do (ask_conforms trivial ?_)
  rintro (_ | g) hg
  · cases forUpdate <;> exact .raise (herr _)
  · obtain ⟨haid, hheld⟩ := hg g rfl
    have h := hok g haid hheld
    cases forUpdate <;> exact .ret h

theorem append_conforms {Q : Except ApprovalError AppendResult → ApprovalKnown → Prop}
    (herr : ∀ e, Q (.error e) m) (hok : ∀ r, Q (.ok r) { m with wrote := true }) :
    Body.Conforms (append g actor scope key p) Q m := by
  refine conforms_do (ask_conforms trivial ?_)
  rintro (e | r) -
  · exact orRaise_conforms (fun _ _ ↦ herr _) nofun
  · exact orRaise_conforms nofun fun _ _ ↦ hok _

theorem project_conforms {g : Grant} {status : ApprovalStatus} {eventId : ℕ} {now : Time}
    {Q : Except ApprovalError Unit → ApprovalKnown → Prop}
    (h : ∀ used, Q (.ok ()) { m.learn g.approvalId fun h ↦ { h with used := some used } with
      wrote := true }) : Body.Conforms (project g status eventId now) Q m := by
  refine conforms_do (ask_conforms trivial fun used _ ↦ ?_)
  refine conforms_do (ask_conforms trivial fun deciders _ ↦ ?_)
  exact ask_conforms (o := .upsertProjection _ _) trivial fun _ _ ↦ h used

theorem setStatus_conforms {status : ApprovalStatus} {seq : ℕ} {g : Grant}
    {Q : Except ApprovalError Unit → ApprovalKnown → Prop} (hm : m.Complete) (hg : m.Knows aid g)
    (hold : g.status ≠ .consumed) (hnew : status ≠ .consumed)
    (h : ∀ m', m'.Complete → m'.Knows aid { g with status := status, aggregateSeq := seq } →
      Q (.ok ()) m') : Body.Conforms (ask (.setStatus aid status seq)) Q m := by
  obtain ⟨h₀, hh₀, rfl, htaken⟩ := hg
  refine ask_conforms ⟨h₀, hh₀, fun ht ↦ ?_, fun _ ↦ ⟨hold, hnew⟩⟩ fun _ _ ↦ h _ ?_ ?_
  · rw [htaken] at ht
    cases ht
  · exact ApprovalKnown.Complete.learn hm fun _ _ ↦ rfl
  · refine ⟨{ h₀ with
      grant := { h₀.grant with status := status, aggregateSeq := seq }
      taken := false }, ?_, rfl, rfl⟩
    exact held_learn_self.trans (congrArg (Option.map _) hh₀)

/-! ### The services besides consumption

They end with nothing left to complete, whatever happens. -/

variable (catalog : PolicyCatalog)

theorem ApprovalKnown.Complete.wrote (hm : m.Complete) : ({ m with wrote := true } : ApprovalKnown).Complete :=
  hm

theorem project_complete (hm : m.Complete)
    (h : ∀ m', m'.Complete → (∀ aid' g', m.Knows aid' g' → m'.Knows aid' g') → Q (.ok ()) m') :
    Body.Conforms (project g status eventId now) Q m := by
  refine project_conforms fun used ↦ h _ ?_ ?_
  · exact ApprovalKnown.Complete.learn hm fun _ ht ↦ ht
  · intro aid' g' hg'
    exact ApprovalKnown.Knows.learn hg' fun _ ↦ ⟨rfl, rfl⟩

theorem createGrant_conforms (hm : ∀ aid, m.held aid = none)
    (huses : ∀ k, r.maxUses = some k → 0 < k) :
    Body.Conforms (createGrant catalog r now) (fun _ m' ↦ m'.Complete) m := by
  have hcomplete : m.Complete := by
    intro aid h hh
    rw [hm aid] at hh
    cases hh
  refine conforms_do (ask_conforms ⟨fun _ ↦ rfl, fun _ ↦ rfl, fun _ ↦ huses⟩ ?_)
  rintro (e | aid) -
  · exact conforms_do (orRaise_conforms (fun _ _ ↦ hcomplete) nofun)
  · refine conforms_do (orRaise_conforms nofun fun a ha ↦ ?_)
    obtain rfl := Except.ok.inj ha
    have hknows : (m.hold (newGrant catalog r now aid)).Knows aid (newGrant catalog r now aid) := by
      refine hcomplete.knows_hold rfl fun h hh ↦ ?_
      rw [hm] at hh
      cases hh
    have hholds := hcomplete.hold (newGrant catalog r now aid)
    refine conforms_do (loadGrant_conforms (fun _ ↦ hholds) fun g hid hg ↦ ?_)
    refine conforms_do (append_conforms (fun _ ↦ hholds) fun res ↦ ?_)
    refine conforms_do (setStatus_conforms hholds hknows (by simp [newGrant]) (by simp) ?_)
    intro m' hm' _
    exact conforms_do (project_complete hm' fun m'' hm'' _ ↦ .ret hm'')

theorem requestApproval_conforms :
    Body.Conforms (requestApproval catalog r) (fun _ m' ↦ m'.Complete) {} := by
  have hnone : ∀ m' : ApprovalKnown, (∀ aid, m'.held aid = none) → m'.Complete := by
    intro m' hm' aid h hh
    rw [hm' aid] at hh
    cases hh
  refine conforms_do (ask_conforms trivial fun x _ ↦ ?_)
  refine conforms_do (orRaise_conforms (fun _ _ ↦ hnone _ fun _ ↦ rfl) fun _ _ ↦ ?_)
  rw [bindPost_ok]
  by_cases huses : (r.maxUses.any fun k ↦ decide (k ≤ 0)) = true
  · rw [if_pos huses]
    exact .raise (hnone _ fun _ ↦ rfl)
  rw [if_neg huses]
  refine conforms_do (ask_conforms trivial fun now _ ↦ ?_)
  rw [bindPost_ok]
  split
  · exact .raise (hnone _ fun _ ↦ rfl)
  refine conforms_do (ask_conforms trivial fun found _ ↦ ?_)
  rw [bindPost_ok]
  split
  · refine conforms_do (loadGrant_conforms (fun _ ↦ hnone _ fun _ ↦ rfl) fun g _ _ ↦ ?_)
    refine conforms_do (ask_conforms trivial fun prior _ ↦ ?_)
    rw [bindPost_ok]
    split
    · exact .ret (hnone _ fun _ ↦ rfl)
    · exact .raise (hnone _ fun _ ↦ rfl)
  · refine createGrant_conforms catalog (fun _ ↦ rfl) fun k hk ↦ ?_
    rw [hk] at huses
    simpa using huses

theorem ne_consumed_of_nextStatus {current : ApprovalStatus} {t : EventType}
    (h : nextStatus current t = .ok status) (ht : t ≠ .consumed) :
    current ≠ .consumed ∧ status ≠ .consumed := by
  obtain ⟨hlive, hlegal⟩ := nextStatus_eq_ok h
  refine ⟨?_, ?_⟩
  · rintro rfl
    simp [ApprovalStatus.terminal] at hlive
  · have htarget := target_of_transitions hlegal ht
    rintro rfl
    cases t <;> simp [EventType.target] at htarget

theorem checkEligibility_conforms
    {Q : Except ApprovalError (Except String PrincipalInfo) → ApprovalKnown → Prop}
    (h : ∀ x, Q (.ok x) m) : Body.Conforms (checkEligibility catalog d g prior) Q m := by
  refine conforms_do (ask_conforms trivial fun found _ ↦ ?_)
  rw [bindPost_ok]
  split
  · exact .ret (h _)
  split
  · exact .ret (h _)
  refine conforms_do (ask_conforms trivial fun graph _ ↦ ?_)
  rw [bindPost_ok]
  split
  · exact .ret (h _)
  split
  · exact .ret (h _)
  split
  · exact .ret (h _)
  refine conforms_do (ask_conforms trivial fun denial _ ↦ ?_)
  rw [bindPost_ok]
  split
  · exact .ret (h _)
  · exact .ret (h _)
  · exact .ret (h _)
  refine conforms_do (ask_conforms trivial fun covered _ ↦ ?_)
  rw [bindPost_ok]
  split
  · exact .ret (h _)
  · split
    · exact .ret (h _)
    · exact .ret (h _)

theorem recordDecision_conforms {approver : String} (herr : ∀ e, Q (.error e) m)
    (hok : Q (.ok ()) { m with wrote := true }) :
    Body.Conforms (recordDecision d approver decision eventId) Q m := by
  refine conforms_do (ask_conforms trivial ?_)
  rintro (e | ⟨⟩) -
  · exact orRaise_conforms (fun _ _ ↦ herr _) nofun
  · exact orRaise_conforms nofun fun _ _ ↦ hok

theorem conclude_conforms (hm : m.Complete) (hg : m.Knows d.approvalId g)
    (hp : p.type ≠ .consumed) :
    Body.Conforms (conclude d g approver decision p now) (fun _ m' ↦ m'.Complete) m := by
  refine conforms_do (append_conforms (fun _ ↦ hm) fun r ↦ ?_)
  refine conforms_do (recordDecision_conforms (fun _ ↦ hm) ?_)
  refine conforms_do (orRaise_conforms (fun _ _ ↦ hm) fun status hstatus ↦ ?_)
  obtain ⟨hold, hnew⟩ := ne_consumed_of_nextStatus hstatus hp
  refine conforms_do (setStatus_conforms hm hg hold hnew fun m' hm' _ ↦ ?_)
  exact conforms_do (project_complete hm' fun m'' hm'' _ ↦ .ret hm'')

theorem recordVote_conforms (hm : m.Complete) (hg : m.Knows d.approvalId g) :
    Body.Conforms (recordVote d g prior approver now) (fun _ m' ↦ m'.Complete) m := by
  have hdone : ∀ {β : Type} {x : Body β} {f : β → Outcome},
      Body.Conforms x (fun _ m' ↦ m'.Complete) m →
      Body.Conforms (x >>= fun b ↦ pure (f b)) (fun _ m' ↦ m'.Complete) m := by
    intro β x f hx
    refine conforms_do (hx.mono ?_)
    rintro (e | b) m' hm'
    · exact hm'
    · exact .ret hm'
  rw [recordVote]
  split
  · exact hdone (conclude_conforms hm hg (by simp [Payload.type]))
  · dsimp only
    split
    · exact hdone (conclude_conforms hm hg (by simp [Payload.type]))
    · refine conforms_do (ask_conforms trivial fun last _ ↦ ?_)
      rw [bindPost_ok]
      split
      · exact .raise hm
      · refine conforms_do (recordDecision_conforms (fun _ ↦ hm) ?_)
        exact conforms_do (project_complete hm.wrote fun m' hm' _ ↦ .ret hm')

theorem decideApproval_conforms (hm : m.Complete) :
    Body.Conforms (decideApproval catalog d) (fun _ m' ↦ m'.Complete) m := by
  refine conforms_do (ask_conforms trivial fun now _ ↦ ?_)
  refine conforms_do (loadGrant_conforms (fun _ ↦ hm) fun g hid hg ↦ ?_)
  have hheld : ({ m with now := some now } : ApprovalKnown).Complete := hm
  have hholds := hheld.hold g
  have hknows := hheld.knows_hold hid hg
  rw [bindPost_ok]
  split
  · exact .raise hholds
  split
  · exact .raise hholds
  refine conforms_do (ask_conforms trivial fun prior _ ↦ ?_)
  refine conforms_do (checkEligibility_conforms catalog fun x ↦ ?_)
  rw [bindPost_ok]
  split
  · exact .raise hholds
  · exact recordVote_conforms hholds hknows

theorem terminate_conforms (hm : m.Complete) (hp : p.type ≠ .consumed) :
    Body.Conforms (terminate aid p actor key scope) (fun x m' ↦ m'.Complete ∧ ∀ r, x = .ok r →
      ∃ g status, p.type.target = some status ∧ m'.Knows aid g ∧ g.status = status) m := by
  refine conforms_do (loadGrant_conforms (fun _ ↦ ⟨hm, nofun⟩) fun g hid hg ↦ ?_)
  have hholds := hm.hold g
  have hknows := hm.knows_hold hid hg
  refine conforms_do (orRaise_conforms (fun _ _ ↦ ⟨hholds, nofun⟩) fun status hstatus ↦ ?_)
  refine conforms_do (append_conforms (fun _ ↦ ⟨hholds, nofun⟩) fun r ↦ ?_)
  obtain ⟨hold, hnew⟩ := ne_consumed_of_nextStatus hstatus hp
  refine conforms_do (setStatus_conforms hholds hknows hold hnew fun m' hm' hk ↦ ?_)
  refine conforms_do (ask_conforms trivial fun now _ ↦ ?_)
  refine conforms_do (project_complete hm' fun m'' hm'' hkeep ↦ .ret ⟨hm'', ?_⟩)
  intro r' _
  exact ⟨_, status, target_of_transitions (nextStatus_eq_ok hstatus).2 hp, hkeep _ _ hk, rfl⟩

theorem cancelApproval_conforms (hm : m.Complete) :
    Body.Conforms (cancelApproval aid actor key reasonCode) (fun _ m' ↦ m'.Complete) m := by
  refine conforms_do (loadGrant_conforms (fun _ ↦ hm) fun g _ _ ↦ ?_)
  have hend : ∀ allowed : Bool, Body.Conforms ((do
      if !allowed then
        throw ⟨"APPROVAL_CANCEL_FORBIDDEN", "only the requester or an administrator", 403⟩
      else
      let result ← terminate aid (.cancelled reasonCode) actor key "cancel"
      return .terminated result.eventId) : Body Outcome) (fun _ m' ↦ m'.Complete) m := by
    intro allowed
    split
    · exact .raise hm
    · refine conforms_do ((terminate_conforms hm (by simp [Payload.type])).mono ?_)
      rintro (e | r) m' ⟨hm', -⟩
      · exact hm'
      · exact .ret hm'
  rw [bindPost_ok]
  dsimp only
  split
  · exact conforms_do (.ret (hend true))
  · exact conforms_do (ask_conforms (o := .isAdminActor actor) trivial fun isAdmin _ ↦
      hend isAdmin)

theorem revokeApproval_conforms (hm : m.Complete) :
    Body.Conforms (revokeApproval aid actor key reasonCode) (fun _ m' ↦ m'.Complete) m := by
  refine conforms_do ((terminate_conforms hm (by simp [Payload.type])).mono ?_)
  rintro (e | r) m' ⟨hm', -⟩
  · exact hm'
  · exact .ret hm'

theorem expireOne_conforms (hm : m.Complete) :
    Body.Conforms (expireOne catalog actor now aid) (fun _ m' ↦ m'.Complete) m := by
  refine conforms_do ((terminate_conforms hm (by simp [Payload.type])).mono ?_)
  rintro (e | r) m' ⟨hm', hend⟩
  · exact hm'
  obtain ⟨g, status, htarget, hg, hstatus⟩ := hend r rfl
  obtain rfl : .expired = status := some.inj htarget
  refine conforms_do (loadGrant_conforms (fun _ ↦ hm') fun g' hid hg' ↦ ?_)
  refine conforms_do (append_conforms (fun _ ↦ hm') fun res ↦ ?_)
  have hne : g.status ≠ .consumed := by
    rw [hstatus]
    simp
  refine conforms_do (setStatus_conforms hm'.wrote hg hne (by simp) fun m'' hm'' _ ↦ ?_)
  exact project_complete hm'' fun m₃ hm₃ _ ↦ hm₃

theorem expireApprovals_conforms {ws : Option String} (hm : m.Complete) :
    Body.Conforms (expireApprovals catalog actor ws) (fun _ m' ↦ m'.Complete) m := by
  refine conforms_do (ask_conforms trivial fun now _ ↦ ?_)
  refine conforms_do (ask_conforms trivial fun expired _ ↦ ?_)
  refine conforms_do (Prog.conforms_forEach (I := fun m' : ApprovalKnown ↦ m'.Complete) hm ?_
    fun m' hm' ↦ .ret hm')
  intro aid _ m' hm'
  refine (expireOne_conforms catalog hm').mono ?_
  rintro (e | r) m'' hm''
  · exact hm''
  · exact hm''

/-! ### Consumption -/

theorem takeUse_conforms (hnow : m.now = some now) (husable : g.usableAt now)
    (hsubject : c.consumedFor = g.subject) {h : HeldGrant} (hheld : m.held c.approvalId = some h)
    (hg : h.grant = g) (hfree : h.taken = false) (habsent : c.consumptionKey ∈ h.absent)
    (hmissed : (c.approvalId, c.consumptionKey) ∈ m.missed) (hm : m.Complete)
    (hid : g.approvalId = c.approvalId) :
    Body.Conforms (takeUse c g now) (fun x m' ↦ m'.Complete ∧ m'.Consumed c x) m := by
  subst hg
  refine conforms_do (ask_conforms trivial fun used _ ↦ ?_)
  let m₁ := m.learn c.approvalId fun h ↦ { h with used := some used }
  have hm₁ : m₁.Complete := hm.learn fun _ ht ↦ ht
  have hheld₁ : m₁.held c.approvalId = some { h with used := some used } :=
    held_learn_self.trans (congrArg (Option.map _) hheld)
  rw [bindPost_ok]
  split
  · exact .raise ⟨hm₁, .failed (.inr hmissed)⟩
  next hroom =>
  refine conforms_do (append_conforms (fun _ ↦ ⟨hm₁, .failed (.inr hmissed)⟩) fun r ↦ ?_)
  have hroom' : ∀ k, h.grant.maxUses = some k → (used : ℤ) < k := by
    intro k hk
    rw [hk] at hroom
    simpa using hroom
  refine conforms_do (ask_conforms ⟨{ h with used := some used }, hheld₁, ⟨now, hnow, husable⟩,
    hsubject, habsent, ⟨used, rfl, hroom'⟩, hfree⟩ ?_)
  rintro x rfl
  refine conforms_do (orRaise_conforms nofun fun _ _ ↦ ?_)
  -- the row is in the ledger, and the status is owed
  let m₂ : ApprovalKnown := { m₁ with wrote := true }
  let m₃ := approvalMonitor.next m₂ (.insertConsumption ⟨c.approvalId, c.consumptionKey,
    c.consumedBy, c.consumedFor, r.eventId⟩) (.ok ())
  have hheld₃ : m₃.held c.approvalId = some { h with
      absent := []
      used := some (used + 1)
      taken := true } := held_learn_self.trans (congrArg (Option.map _) hheld₁)
  have hset : ApprovalKnown.MaySet { h with absent := [], used := some (used + 1), taken := true }
      (statusAfterConsumption (used + 1) h.grant.maxUses) :=
    ⟨fun _ ↦ ⟨used + 1, rfl, rfl⟩, nofun⟩
  refine conforms_do (ask_conforms (m := m₃) (o := .setStatus _ _ _) ⟨_, hheld₃, hset⟩
    fun _ _ ↦ ?_)
  have hm₄ : (m₃.learn c.approvalId fun h' ↦ { h' with
      grant := { h'.grant with
        status := statusAfterConsumption (used + 1) h.grant.maxUses
        aggregateSeq := r.aggregateSeq }
      taken := false }).Complete := by
    intro aid' h' hh'
    by_cases haid : aid' = c.approvalId
    · subst haid
      rw [held_learn_self, hheld₃, map_some, some.injEq] at hh'
      rw [← hh']
    · rw [held_learn_of_ne haid] at hh'
      have hm₃ : m₃.held aid' = m₁.held aid' := held_learn_of_ne haid
      rw [hm₃] at hh'
      exact hm₁ aid' h' hh'
  refine conforms_do (project_conforms fun used' ↦ .ret ⟨?_, .taken hmissed⟩)
  exact ApprovalKnown.Complete.learn hm₄ fun _ ht ↦ ht

theorem consumeApproval_conforms :
    Body.Conforms (consumeApproval c) (fun x m' ↦ m'.Complete ∧ m'.Consumed c x) {} := by
  have hm : ∀ now, ({ now := some now } : ApprovalKnown).Complete := fun _ _ _ hh ↦ nomatch hh
  refine conforms_do (ask_conforms trivial fun now _ ↦ ?_)
  refine conforms_do (loadGrant_conforms (fun _ ↦ ⟨hm now, .failed (.inl
    mem_cons_self)⟩) fun g hid hg ↦ ?_)
  have hholds := (hm now).hold g
  obtain ⟨h, hheld, hgrant, htaken⟩ := (hm now).knows_hold hid hg
  refine conforms_do (ask_conforms (o := .findConsumption _ _) trivial ?_)
  rintro (_ | eventId) -
  · -- the key is not recorded
    rw [bindPost_ok]
    let m₁ : ApprovalKnown := approvalMonitor.next (({ now := some now } : ApprovalKnown).hold g)
      (.findConsumption c.approvalId c.consumptionKey) none
    have hm₁ : m₁.Complete := ApprovalKnown.Complete.learn hholds fun _ ht ↦ ht
    have hheld₁ : m₁.held c.approvalId = some { h with absent := c.consumptionKey :: h.absent } :=
      held_learn_self.trans (congrArg (Option.map _) hheld)
    change Body.Conforms _ _ m₁
    dsimp only
    by_cases hconsumed : g.status = .consumed
    · rw [if_pos hconsumed]
      exact .raise ⟨hm₁, .failed (.inr mem_cons_self)⟩
    rw [if_neg hconsumed]
    by_cases hstatus : g.status ∈ ApprovalStatus.consumable
    · rw [if_neg (by simpa using hstatus)]
      by_cases hwindow : (!(decide (g.validFrom ≤ now) && decide (now < g.expiresAt))) = true
      · rw [if_pos hwindow]
        exact .raise ⟨hm₁, .failed (.inr mem_cons_self)⟩
      rw [if_neg hwindow]
      by_cases hsubject : c.consumedFor = g.subject
      · rw [if_neg (by simpa using hsubject)]
        have husable : g.usableAt now = true := by
          simp only [Bool.not_eq_true', Bool.not_eq_false] at hwindow
          rw [Grant.usableAt, Bool.and_assoc, hwindow, Bool.and_true]
          exact decide_eq_true hstatus
        exact takeUse_conforms rfl husable hsubject hheld₁ hgrant htaken mem_cons_self
          mem_cons_self hm₁ hid
      · rw [if_pos hsubject]
        exact .raise ⟨hm₁, .failed (.inr mem_cons_self)⟩
    · rw [if_pos hstatus]
      exact .raise ⟨hm₁, .failed (.inr mem_cons_self)⟩
  · -- the key is recorded
    rw [bindPost_ok]
    refine conforms_do (ask_conforms (o := .countConsumptions _) trivial fun used _ ↦ .ret ⟨?_, ?_⟩)
    · exact ApprovalKnown.Complete.learn hholds fun _ ht ↦ ht
    · subst hgrant
      exact .replayed (h := { h with used := some used }) mem_cons_self
        (held_learn_self.trans (congrArg (Option.map _) hheld)) rfl rfl

theorem approvalBody_conforms (call : ApprovalCall) :
    Body.Conforms (approvalBody catalog call) (fun x m' ↦ m'.Ends call x) {} := by
  have hm : ({} : ApprovalKnown).Complete := fun _ _ hh ↦ nomatch hh
  cases call with
  | request => exact (requestApproval_conforms catalog).mono fun _ _ h ↦ ⟨h, nofun⟩
  | decide => exact (decideApproval_conforms catalog hm).mono fun _ _ h ↦ ⟨h, nofun⟩
  | cancel => exact (cancelApproval_conforms hm).mono fun _ _ h ↦ ⟨h, nofun⟩
  | revoke => exact (revokeApproval_conforms hm).mono fun _ _ h ↦ ⟨h, nofun⟩
  | expire => exact (expireApprovals_conforms catalog hm).mono fun _ _ h ↦ ⟨h, nofun⟩
  | consume =>
    refine consumeApproval_conforms.mono ?_
    rintro x m' ⟨hcomplete, hend⟩
    refine ⟨hcomplete, ?_⟩
    rintro c' h
    cases h
    exact hend
  | setAliases =>
    exact conforms_do (ask_conforms (o := .setAliases _) trivial fun _ _ ↦ .ret ⟨hm, nofun⟩)

end Conformance

/-- The approval database and its clients. A transaction may commit after a call that has raised. -/
abbrev approvalSystem (catalog : PolicyCatalog) : System where
  Op := Op
  Res := Res
  Err := ApprovalError
  Ret := Outcome
  db := approvalDatabase
  Entry := ApprovalCall
  body := approvalBody catalog
  Aux := Unit
  mayCall _ _ _ := true
  mayCommit _ := true
  onCall _ _ := ()
  onCommit _ _ := ()

def approvalProtocol (catalog : PolicyCatalog) :
    System.Protocol (approvalSystem catalog) ApprovalKnown where
  monitor := approvalMonitor
  start _ := {}
  finish call x m := m.Ends call x
  conforms := approvalBody_conforms catalog

end AgentColab.Approvals
