import AgentColab.Secrets.Safety

/-!
# The values that are held in the process

A store of an in-process adapter takes a value when the transaction of the resolve has ended, and
gives it up when a revocation calls it: once, after the update of the leases and before the commit.
The row lock of the lease orders a resolve and a revocation, and says nothing about a value that its
store has not taken yet. A value that is taken in time is wiped with the others.
-/

namespace AgentColab.Secrets

open List

/-! ## A store -/

/-- `InMemoryHandleStore`: the values by lease, and the lease of a handle. Nothing reads the order of
either. -/
structure HandleStore where
  values : List (LeaseId × Bytes)
  handles : List (String × LeaseId)

namespace HandleStore

def empty : HandleStore := ⟨[], []⟩

/-- The end of `resolve`: the value takes the place of the one that was there. -/
def put (st : HandleStore) (leaseId : LeaseId) (handle : String) (value : Bytes) : HandleStore where
  values := st.values.filter (·.1 ≠ leaseId) ++ [(leaseId, value)]
  handles := st.handles.filter (·.1 ≠ handleHash handle) ++ [(handleHash handle, leaseId)]

/-- `_wipe`: what is popped is zeroed. -/
def wipe (st : HandleStore) (leaseIds : List LeaseId) : HandleStore where
  values := st.values.filter (·.1 ∉ leaseIds)
  handles := st.handles.filter (·.2 ∉ leaseIds)

/-- `holds` -/
def holds (st : HandleStore) (leaseId : LeaseId) : Bool :=
  match st.values.lookup leaseId with
  | none => false
  | some value => value.any (· ≠ 0)

/-- Nothing is kept for a lease. -/
def Without (st : HandleStore) (leaseId : LeaseId) : Prop := ∀ v ∈ st.values, v.1 ≠ leaseId

variable {st : HandleStore} {leaseId : LeaseId}

theorem Without.holds (h : st.Without leaseId) : st.holds leaseId = false := by
  have hnone : st.values.lookup leaseId = none := by
    rw [lookup_eq_none_iff]
    intro v hv
    simpa using fun heq ↦ h v hv heq.symm
  rw [HandleStore.holds, hnone]

theorem Without.empty (leaseId : LeaseId) : empty.Without leaseId := forall_mem_nil _

theorem Without.wipe (h : st.Without leaseId) (leaseIds : List LeaseId) :
    (st.wipe leaseIds).Without leaseId :=
  fun v hv ↦ h v (mem_of_mem_filter hv)

theorem Without.put {id : LeaseId} (h : st.Without leaseId) (hne : id ≠ leaseId) (handle : String)
    (value : Bytes) : (st.put id handle value).Without leaseId := by
  intro v hv
  rcases mem_append.1 hv with hv | hv
  · exact h v (mem_of_mem_filter hv)
  · rw [mem_singleton.1 hv]
    exact hne

theorem without_wipe (st : HandleStore) {leaseIds : List LeaseId} (h : leaseId ∈ leaseIds) :
    (st.wipe leaseIds).Without leaseId := by
  rintro v hv rfl
  simpa [h] using (mem_filter.1 hv).2

end HandleStore

/-! ## The process -/

structure Put where
  store : ℕ
  handle : String
  leaseId : LeaseId
  value : Bytes

/-- The database with the stores of one process. `listeners` are the stores that have subscribed,
`callers` the transactions that a `resolve` of a store runs, `pending` the values that such calls have
yet to put away, and `notifying` the listeners that a revocation has still to call. -/
structure Process where
  world : World
  stores : ℕ → HandleStore
  listeners : List ℕ
  callers : List (ℕ × ℕ)
  pending : List Put
  notifying : ℕ → Option (List ℕ)

/-- The steps of the process. A revocation calls the listeners one after the other; a call of
`cleanup` wipes the leases that it has listed before. -/
inductive Action where
  | create (k : ℕ)
  | call (k i : ℕ) (request : ResolveRequest)
  | statement (l : Label)
  | notify (i : ℕ)
  | listen (i : ℕ)
  | put (n : ℕ)
  | cleanup (k : ℕ) (leaseIds : List LeaseId)

namespace Process

/-- The value that the transaction `i` has read for the store that called it. -/
def returned (p : Process) (i : ℕ) : List Put :=
  match p.callers.lookup i, p.world.transactions i with
  | some k, some (.resolve q _ (.read l value)) => [⟨k, q.handle, l.leaseId, value⟩]
  | _, _ => []

/-- The end of the transaction `i`. -/
def finish (p : Process) (i : ℕ) (w : World) : Process :=
  { p with
    world := w
    callers := p.callers.filter (·.1 ≠ i)
    notifying := Function.update p.notifying i none }

/-- A revocation that has found nothing to revoke returns early; any other has called every
listener of its snapshot. -/
def Notified (p : Process) (i : ℕ) : Prop :=
  match p.world.transactions i with
  | some (.revoke _ (.grants _ ids grantIds)) => ids = [] ∧ grantIds = [] ∨ p.notifying i = some []
  | _ => True

instance (p : Process) (i : ℕ) : Decidable (p.Notified i) := by
  unfold Notified
  split <;> infer_instance

def setStore (p : Process) (k : ℕ) (st : HandleStore) : Process :=
  { p with stores := Function.update p.stores k st }

def step (p : Process) : Action → Option Process
  | .create k =>
    if k ∈ p.listeners then none else some { p with listeners := p.listeners ++ [k] }
  | .call k i q =>
    if k ∈ p.listeners then
      (p.world.step (.beginResolve i q)).map fun w ↦
        { p with world := w, callers := p.callers ++ [(i, k)] }
    else none
  | .statement (.commitResolve i) =>
    (p.world.step (.commitResolve i)).map fun w ↦
      { p.finish i w with pending := p.pending ++ p.returned i }
  | .statement (.commitRevoke i) =>
    if p.Notified i then (p.world.step (.commitRevoke i)).map (p.finish i) else none
  | .statement (.stop i) => (p.world.step (.stop i)).map (p.finish i)
  | .statement l => (p.world.step l).map fun w ↦ { p with world := w }
  | .notify i =>
    match p.notifying i, p.world.transactions i with
    | none, some (.revoke _ (.grants _ ids grantIds)) =>
      if ids = [] ∧ grantIds = [] then none
      else some { p with notifying := Function.update p.notifying i (some p.listeners) }
    | _, _ => none
  | .listen i =>
    match p.notifying i, p.world.transactions i with
    | some (k :: rest), some (.revoke _ (.grants _ ids _)) =>
      some { p.setStore k ((p.stores k).wipe ids) with
        notifying := Function.update p.notifying i (some rest) }
    | _, _ => none
  | .put n =>
    match p.pending[n]? with
    | some q =>
      some { p.setStore q.store ((p.stores q.store).put q.leaseId q.handle q.value) with
        pending := p.pending.eraseIdx n }
    | none => none
  | .cleanup k leaseIds => some (p.setStore k ((p.stores k).wipe leaseIds))

def start (grants : List GrantRow) : Process where
  world := World.start grants
  stores := fun _ ↦ .empty
  listeners := []
  callers := []
  pending := []
  notifying := fun _ ↦ none

inductive Run (C : Process → Action → Prop) : Process → List Action → Process → Prop
  | nil (p : Process) : Run C p [] p
  | cons {p p₁ p' : Process} {a : Action} {as : List Action} (hstep : p.step a = some p₁)
      (hC : C p a) (h : Run C p₁ as p') : Run C p (a :: as) p'

/-- When every call of `resolve` has returned, no store holds a byte of a lease whose revocation
has committed. -/
def NoLiveBytes (p : Process) : Prop :=
  p.pending = [] → p.callers = [] →
    ∀ l ∈ p.world.leases, l.revokedAt ≠ none → ∀ k, (p.stores k).holds l.leaseId = false

/-- A listener is called for its leases when every committed `resolve` of its store has put the
value of such a lease away. -/
def Settled (p : Process) : Action → Prop
  | .listen i =>
    match p.notifying i, p.world.transactions i with
    | some (k :: _), some (.revoke _ (.grants _ ids _)) =>
      ∀ q ∈ p.pending, q.store = k → q.leaseId ∉ ids
    | _, _ => True
  | _ => True

instance (p : Process) (a : Action) : Decidable (p.Settled a) := by
  unfold Settled
  split
  · split <;> infer_instance
  · infer_instance

end Process

end AgentColab.Secrets
