import AgentColab.Secrets.Injection

/-!
# Why a value that is taken in time is wiped

A lease is locked by a resolve from its check to the commit, and by a revocation from its update to
the commit. So no resolve of the lease commits while the listeners are called, and none after: what
the stores hold of it when they are called is all they will ever hold.
-/

namespace AgentColab.Secrets

open List Option
open World (step countUse revokeLease)

open Function (update_of_ne update_self)

/-! ## What a transaction has locked -/

def Transaction.lease : Transaction → Option LeaseRow
  | .resolve _ _ (.locked l) => some l
  | .resolve _ _ (.granted l) => some l
  | .resolve _ _ (.read l _) => some l
  | _ => none

def Transaction.ids : Transaction → List LeaseId
  | .revoke _ (.leases _ ids) => ids
  | .revoke _ (.grants _ ids _) => ids
  | _ => []

def Transaction.inserted : Transaction → Option LeaseRow
  | .issue _ _ (.inserted l) => some l
  | _ => none

/-- The transaction `i` has its locks. -/
structure Holding (w : World) (i : ℕ) (t : Transaction) : Prop where
  lease : ∀ l, t.lease = some l → Held w i l
  ids : ∀ id ∈ t.ids, w.locks id = some i
  inserted : ∀ l, t.inserted = some l → l.revokedAt = none

structure Secured (w : World) : Prop where
  leaseIds : (w.leases.map LeaseRow.leaseId).Nodup
  holding : ∀ i t, w.transactions i = some t → Holding w i t

/-! ## What a statement can do -/

/-- The transaction `i` moves on to `t`, and locks the leases `ids`. -/
structure Moved (w : World) (i : ℕ) (ids : List LeaseId) (t : Transaction) : Prop where
  free : ∀ id ∈ ids, w.Free i id
  lease : ∀ l, t.lease = some l → (l ∈ w.leases ∧ l.revokedAt = none ∧ l.leaseId ∈ ids) ∨
    ∃ t₀, w.transactions i = some t₀ ∧ t₀.lease = some l
  ids : ∀ id ∈ t.ids, id ∈ ids ∨ ∃ t₀, w.transactions i = some t₀ ∧ id ∈ t₀.ids
  inserted : ∀ l, t.inserted = some l → l.revokedAt = none
  /-- A revocation that has updated the grants has nothing left but its commit. -/
  updated : ∀ r seen ids grantIds, w.transactions i ≠ some (.revoke r (.grants seen ids grantIds))

theorem forall_of_eq_none {α : Type} {x : Option α} {P : α → Prop} (h : x = none) :
    ∀ y, x = some y → P y := by
  rintro y rfl
  cases h

variable {w w' : World} {i : ℕ} {t : Transaction} {l : LeaseRow}

theorem Moved.of_none (hlease : t.lease = none) (hids : t.ids = []) (hinserted : t.inserted = none)
    (hupdated : ∀ r seen ids grantIds, w.transactions i ≠ some (.revoke r (.grants seen ids
    grantIds))) : Moved w i [] t where
  free := forall_mem_nil _
  lease := forall_of_eq_none hlease
  ids := fun _ hid ↦ by
    rw [hids] at hid
    cases hid
  inserted := forall_of_eq_none hinserted
  updated := hupdated

theorem Moved.of_same {t₀ : Transaction} (hi : w.transactions i = some t₀)
    (hlease : t.lease = t₀.lease) (hids : t.ids = t₀.ids) (hinserted : t.inserted = none)
    (hupdated : ∀ r seen ids grantIds, t₀ ≠ .revoke r (.grants seen ids grantIds)) :
    Moved w i [] t where
  free := forall_mem_nil _
  lease := fun _ hl ↦ .inr ⟨t₀, hi, hlease ▸ hl⟩
  ids := fun _ hid ↦ .inr ⟨t₀, hi, hids ▸ hid⟩
  inserted := forall_of_eq_none hinserted
  updated := by
    intro r seen ids grantIds hi'
    rw [hi] at hi'
    exact hupdated _ _ _ _ (some.inj hi')

theorem revokedAt_newLease {q : IssueRequest} {g : GrantRow} (h : World.newLease q g = some l) :
    l.revokedAt = none := by
  unfold World.newLease at h
  dsimp only at h
  split_ifs at h
  obtain rfl := some.inj h
  rfl

theorem lock_nil (w : World) (i : ℕ) : w.lock i [] = w := by simp [World.lock]

/-- The statements that are not the end of a transaction. -/
def Label.Inner : Label → Prop
  | .commitIssue _ => False
  | .commitResolve _ => False
  | .commitRevoke _ => False
  | .stop _ => False
  | _ => True

theorem moved_of_step {label : Label} (hinner : label.Inner) (hstep : w.step label = some w') :
    ∃ i ids t, w' = (w.lock i ids).set i (some t) ∧ Moved w i ids t := by
  have hset : ∀ {i : ℕ} {t : Transaction}, w.set i (some t) = w' → Moved w i [] t →
      ∃ i ids t, w' = (w.lock i ids).set i (some t) ∧ Moved w i ids t :=
    fun {i t} heq h ↦ ⟨i, [], t, by rw [lock_nil]; exact heq.symm, h⟩
  cases label with
  | commitIssue | commitResolve | commitRevoke | stop => exact hinner.elim
  | beginIssue i q | beginResolve i q | beginRevoke i r =>
    rw [step] at hstep
    split at hstep
    · rename_i hi
      exact hset (some.inj hstep) (.of_none rfl rfl rfl fun _ _ _ _ h ↦ by simp [hi] at h)
    · cases hstep
  | readGrants i =>
    rw [step] at hstep
    split at hstep
    · rename_i hi
      obtain ⟨g, -, heq⟩ := map_eq_some_iff.1 hstep
      exact hset heq (.of_same hi rfl rfl rfl (by rintro _ _ _ _ ⟨⟩))
    · cases hstep
  | insertLease i =>
    rw [step] at hstep
    split at hstep
    · rename_i hi
      obtain ⟨l, hl, heq⟩ := map_eq_some_iff.1 hstep
      refine hset heq ⟨forall_mem_nil _, forall_of_eq_none rfl,
        forall_mem_nil _, fun l' hl' ↦ ?_, ?_⟩
      · obtain rfl := some.inj hl'
        exact revokedAt_newLease hl
      · intro r seen ids grantIds h
        simp [hi] at h
    · cases hstep
  | lockLease i =>
    rw [step] at hstep
    split at hstep
    · rename_i q began hi
      split_ifs at hstep
      split at hstep
      · cases hstep
      · rename_i l hcheck
        split_ifs at hstep with hfree
        obtain ⟨hrow, -, hrevoked⟩ := checkLease_ok hcheck
        refine ⟨i, _, _, (some.inj hstep).symm, ?_, ?_, ?_, forall_of_eq_none rfl, ?_⟩
        · intro id hid
          rw [mem_singleton.1 hid]
          exact hfree
        · intro l' hl'
          obtain rfl := some.inj hl'
          exact .inl ⟨mem_of_find?_eq_some hrow, hrevoked, mem_singleton_self _⟩
        · exact forall_mem_nil _
        · intro r seen ids grantIds h
          simp [hi] at h
    · cases hstep
  | readGrant i approvals =>
    rw [step] at hstep
    split at hstep
    · rename_i hi
      split at hstep
      · cases hstep
      · split at hstep
        · cases hstep
        · exact hset (some.inj hstep) (.of_same hi rfl rfl rfl (by rintro _ _ _ _ ⟨⟩))
    · cases hstep
  | readSecret i value | scanLeases i | updateGrants i =>
    rw [step] at hstep
    split at hstep
    · rename_i hi
      exact hset (some.inj hstep) (.of_same hi rfl rfl rfl (by rintro _ _ _ _ ⟨⟩))
    · cases hstep
  | updateLeases i =>
    rw [step] at hstep
    split at hstep
    · rename_i r seen candidates hi
      dsimp only at hstep
      split_ifs at hstep with hfree
      refine ⟨i, _, _, (some.inj hstep).symm, ?_, forall_of_eq_none rfl, ?_,
        forall_of_eq_none rfl, ?_⟩
      · intro id hid
        obtain ⟨l, hl, rfl⟩ := List.mem_map.1 hid
        have hp := (mem_filter.1 hl).2
        simp only [decide_eq_true_eq] at hp
        exact hfree _ hp.1
      · exact fun id hid ↦ .inl hid
      · intro r seen ids grantIds h
        simp [hi] at h
    · cases hstep

/-! ## The locks are kept -/

theorem Secured.next {x : Option Transaction} (h : Secured w)
    (hleaseIds : (w'.leases.map LeaseRow.leaseId).Nodup)
    (hset : ∀ j, w'.transactions j = if j = i then x else w.transactions j)
    (hheld : ∀ j ≠ i, ∀ l ∈ w.leases, w.locks l.leaseId = some j → l ∈ w'.leases)
    (hlocks : ∀ j ≠ i, ∀ id, w.locks id = some j → w'.locks id = some j)
    (hx : ∀ t, x = some t → Holding w' i t) : Secured w' := by
  refine ⟨hleaseIds, fun j t ht ↦ ?_⟩
  rw [hset j] at ht
  split_ifs at ht with hj
  · subst hj
    exact hx t ht
  · obtain ⟨hlease, hids, hinserted⟩ := h.holding j t ht
    refine ⟨fun l hl ↦ ?_, fun id hid ↦ hlocks j hj id (hids id hid), hinserted⟩
    have hl := hlease l hl
    exact ⟨hheld j hj l hl.mem hl.lock, hl.revokedAt, hlocks j hj _ hl.lock⟩

theorem Secured.move (h : Secured w) {ids : List LeaseId} (hm : Moved w i ids t) :
    Secured ((w.lock i ids).set i (some t)) := by
  have hown : ∀ id, id ∈ ids ∨ w.locks id = some i →
      ((w.lock i ids).set i (some t)).locks id = some i := by
    intro id hid
    change (if id ∈ ids then some i else w.locks id) = some i
    split_ifs with hmem
    · rfl
    · exact hid.resolve_left hmem
  refine h.next h.leaseIds (fun _ ↦ rfl) (fun _ _ _ hl _ ↦ hl)
    (fun j hj ↦ (leaves_lock hm.free hj).locks) fun t' ht' ↦ ?_
  obtain rfl := some.inj ht'
  constructor
  · intro l hl
    rcases hm.lease l hl with ⟨hmem, hrevoked, hid⟩ | ⟨t₀, ht₀, hl⟩
    · exact ⟨hmem, hrevoked, hown _ (.inl hid)⟩
    · have hheld := (h.holding i t₀ ht₀).lease l hl
      exact ⟨hheld.mem, hheld.revokedAt, hown _ (.inr hheld.lock)⟩
  · intro id hid
    rcases hm.ids id hid with hid | ⟨t₀, ht₀, hid⟩
    · exact hown id (.inl hid)
    · exact hown id (.inr ((h.holding i t₀ ht₀).ids id hid))
  · exact hm.inserted

theorem Secured.finish (h : Secured w) {f : LeaseRow → LeaseRow}
    (hw : w'.transactions = (w.close i).transactions) (hlocks : w'.locks = (w.close i).locks)
    (hleases : w'.leases = w.leases.map f) (hid : ∀ l, (f l).leaseId = l.leaseId)
    (hother : ∀ j ≠ i, ∀ l, w.locks l.leaseId = some j → f l = l) : Secured w' := by
  refine h.next (i := i) (x := none) ?_ (fun _ ↦ by rw [hw]; rfl) ?_ ?_ fun _ ht ↦ (nomatch ht)
  · rw [hleases, List.map_map]
    have : LeaseRow.leaseId ∘ f = LeaseRow.leaseId := funext hid
    rw [this]
    exact h.leaseIds
  · intro j hj l hl hlock
    rw [hleases]
    exact List.mem_map.2 ⟨l, hl, hother j hj l hlock⟩
  · intro j hj id hlock
    rw [hlocks]
    exact locks_close hj hlock

theorem Secured.commitIssue (h : Secured w) (i : ℕ) (hfresh : w.Fresh l) (issued : LeaseId → ℕ) :
    Secured { w.close i with leases := w.leases ++ [l], issued := issued } := by
  refine h.next (i := i) (x := none) ?_ (fun _ ↦ rfl) (fun _ _ l hl _ ↦ mem_append_left _ hl)
    (fun j hj id hid ↦ locks_close hj hid) fun _ ht ↦ (nomatch ht)
  rw [map_append, nodup_append]
  refine ⟨h.leaseIds, by simp, ?_⟩
  intro x hx y hy
  obtain ⟨q, hq, rfl⟩ := List.mem_map.1 hx
  obtain rfl : y = l.leaseId := by simpa using hy
  exact (hfresh q hq).1

theorem Secured.countUse_other (hl : Held w i l) (now : Time) :
    ∀ j ≠ i, ∀ x : LeaseRow, w.locks x.leaseId = some j → countUse l.leaseId now x = x := by
  intro j hj x hlock
  refine countUse_of_ne fun heq ↦ ?_
  rw [heq, hl.lock] at hlock
  exact hj (some.inj hlock).symm

theorem Secured.revokeLease_other {ids : List LeaseId} (hids : ∀ id ∈ ids, w.locks id = some i)
    (now : Time) :
    ∀ j ≠ i, ∀ x : LeaseRow, w.locks x.leaseId = some j → revokeLease ids now x = x := by
  intro j hj x hlock
  refine if_neg fun hid ↦ ?_
  rw [hids _ hid] at hlock
  exact hj (some.inj hlock).symm

theorem step_commitResolve (hstep : w.step (.commitResolve i) = some w') :
    ∃ q began l value, w.transactions i = some (.resolve q began (.read l value)) ∧
      w' = { w.close i with
        leases := w.leases.map (countUse l.leaseId q.now)
        answers := w.answers ++ [⟨l.leaseId, began, q.now, value⟩] } := by
  rw [step] at hstep
  split at hstep
  · rename_i q began l value hi
    exact ⟨q, began, l, value, hi, (some.inj hstep).symm⟩
  · cases hstep

theorem step_commitRevoke (hstep : w.step (.commitRevoke i) = some w') :
    ∃ r seen ids grantIds, w.transactions i = some (.revoke r (.grants seen ids grantIds)) ∧
      w' = { w.close i with
        leases := w.leases.map (revokeLease ids r.now)
        grants := w.grants.map (World.revokeGrant grantIds r.now)
        revocations := w.revocations ++ [r] } := by
  rw [step] at hstep
  split at hstep
  · rename_i r seen ids grantIds hi
    exact ⟨r, seen, ids, grantIds, hi, (some.inj hstep).symm⟩
  · cases hstep

theorem step_commitIssue (hstep : w.step (.commitIssue i) = some w') :
    ∃ q began l, w.transactions i = some (.issue q began (.inserted l)) ∧ w.Fresh l ∧
      w' = { w.close i with
        leases := w.leases ++ [l]
        issued := Function.update w.issued l.leaseId began } := by
  rw [step] at hstep
  split at hstep
  · rename_i q began l hi
    split_ifs at hstep with hfresh
    exact ⟨q, began, l, hi, hfresh, (some.inj hstep).symm⟩
  · cases hstep

/-! ## What the process keeps -/

namespace Process

/-- Nothing of the lease is in the store, and nothing is on its way there. -/
structure Without (p : Process) (k : ℕ) (leaseId : LeaseId) : Prop where
  store : (p.stores k).Without leaseId
  pending : ∀ q ∈ p.pending, q.store = k → q.leaseId ≠ leaseId

structure Wiped (p : Process) : Prop where
  secured : Secured p.world
  revoked : ∀ l ∈ p.world.leases, l.revokedAt ≠ none → ∀ k, p.Without k l.leaseId
  /-- The listeners that a revocation has called have nothing of its leases. -/
  notified : ∀ i rest, p.notifying i = some rest → ∃ r seen ids grantIds,
    p.world.transactions i = some (.revoke r (.grants seen ids grantIds)) ∧
      ∀ id ∈ ids, ∀ k ∉ rest, p.Without k id
  outside : ∀ k ∉ p.listeners, ∀ id, p.Without k id
  callers : ∀ c ∈ p.callers, c.2 ∈ p.listeners

variable {p p' : Process} {w : World} {callers : List (ℕ × ℕ)} {i : ℕ} {as : List Action}

theorem Wiped.of_without (h : Wiped p) (hworld : p'.world = p.world)
    (hnotifying : p'.notifying = p.notifying) (hcallers : p'.callers = p.callers)
    (hlisteners : p.listeners ⊆ p'.listeners)
    (hwithout : ∀ k id, p.Without k id → p'.Without k id) : Wiped p' where
  secured := hworld ▸ h.secured
  revoked := by
    rw [hworld]
    exact fun l hl hrevoked k ↦ hwithout k _ (h.revoked l hl hrevoked k)
  notified := by
    rw [hworld, hnotifying]
    intro i rest hi
    obtain ⟨r, seen, ids, grantIds, ht, hids⟩ := h.notified i rest hi
    exact ⟨r, seen, ids, grantIds, ht, fun id hid k hk ↦ hwithout k id (hids id hid k hk)⟩
  outside := fun k hk id ↦ hwithout k id (h.outside k (fun hmem ↦ hk (hlisteners hmem)) id)
  callers := by
    rw [hcallers]
    exact fun c hc ↦ hlisteners (h.callers c hc)

theorem Wiped.advance (h : Wiped p) {notifying : ℕ → Option (List ℕ)} (hsecured : Secured w)
    (hrevoked : ∀ l ∈ w.leases, l.revokedAt ≠ none → (∃ l' ∈ p.world.leases, l'.leaseId = l.leaseId
    ∧ l'.revokedAt ≠ none) ∨ ∀ k, p.Without k l.leaseId) (hnotifying : ∀ i rest, notifying i = some
    rest → p.notifying i = some rest ∧ ∀ r seen ids grantIds, p.world.transactions i = some (.revoke
    r (.grants seen ids grantIds)) → w.transactions i = p.world.transactions i)
    (hcallers : ∀ c ∈ callers, c.2 ∈ p.listeners) :
    Wiped { p with world := w, callers := callers, notifying := notifying } where
  secured := hsecured
  revoked := by
    intro l hl hnone k
    rcases hrevoked l hl hnone with ⟨l', hl', hid, hnone'⟩ | hwithout
    · have := h.revoked l' hl' hnone' k
      rw [hid] at this
      exact ⟨this.store, this.pending⟩
    · exact ⟨(hwithout k).store, (hwithout k).pending⟩
  notified := by
    intro i rest hi
    obtain ⟨hi, htransactions⟩ := hnotifying i rest hi
    obtain ⟨r, seen, ids, grantIds, ht, hids⟩ := h.notified i rest hi
    refine ⟨r, seen, ids, grantIds, (htransactions _ _ _ _ ht).trans ht, fun id hid k hk ↦ ?_⟩
    exact ⟨(hids id hid k hk).store, (hids id hid k hk).pending⟩
  outside := fun k hk id ↦ ⟨(h.outside k hk id).store, (h.outside k hk id).pending⟩
  callers := hcallers

theorem Wiped.finish (h : Wiped p) (hsecured : Secured w) (hrevoked : ∀ l ∈ w.leases, l.revokedAt ≠
    none → (∃ l' ∈ p.world.leases, l'.leaseId = l.leaseId ∧ l'.revokedAt ≠ none) ∨ ∀ k, p.Without k
    l.leaseId) (hset : ∀ j ≠ i, w.transactions j = p.world.transactions j) :
    Wiped (p.finish i w) := by
  refine h.advance hsecured hrevoked ?_ fun c hc ↦ h.callers c (mem_of_mem_filter hc)
  intro j rest hj
  by_cases hji : j = i
  · subst hji
    rw [update_self] at hj
    cases hj
  · rw [update_of_ne hji] at hj
    exact ⟨hj, fun _ _ _ _ _ ↦ hset j hji⟩

theorem Wiped.pend (h : Wiped p) {new : List Put}
    (hrevoked : ∀ q ∈ new, ∀ l ∈ p.world.leases, l.leaseId = q.leaseId → l.revokedAt = none)
    (hnotified : ∀ q ∈ new, ∀ i r seen ids grantIds, p.world.transactions i = some (.revoke r
    (.grants seen ids grantIds)) → q.leaseId ∉ ids)
    (hlisteners : ∀ q ∈ new, q.store ∈ p.listeners) :
    Wiped { p with pending := p.pending ++ new } where
  secured := h.secured
  revoked := by
    intro l hl hnone k
    refine ⟨(h.revoked l hl hnone k).store, fun q hq hk heq ↦ ?_⟩
    rcases mem_append.1 hq with hq | hq
    · exact (h.revoked l hl hnone k).pending q hq hk heq
    · exact hnone (hrevoked q hq l hl heq.symm)
  notified := by
    intro i rest hi
    obtain ⟨r, seen, ids, grantIds, ht, hids⟩ := h.notified i rest hi
    refine ⟨r, seen, ids, grantIds, ht, fun id hid k hk ↦ ⟨(hids id hid k hk).store, ?_⟩⟩
    intro q hq hqk heq
    rcases mem_append.1 hq with hq | hq
    · exact (hids id hid k hk).pending q hq hqk heq
    · exact hnotified q hq i r seen ids grantIds ht (heq ▸ hid)
  outside := by
    intro k hk id
    refine ⟨(h.outside k hk id).store, fun q hq hqk ↦ ?_⟩
    rcases mem_append.1 hq with hq | hq
    · exact (h.outside k hk id).pending q hq hqk
    · exact absurd (hqk ▸ hlisteners q hq) hk
  callers := h.callers

theorem Wiped.notify (h : Wiped p) {rest : List ℕ} {r : Revoke} {seen : ℕ} {ids : List LeaseId}
    {grantIds : List String}
    (hi : p.world.transactions i = some (.revoke r (.grants seen ids grantIds)))
    (hids : ∀ id ∈ ids, ∀ k ∉ rest, p.Without k id) :
    Wiped { p with notifying := Function.update p.notifying i (some rest) } where
  secured := h.secured
  revoked := fun l hl hnone k ↦ ⟨(h.revoked l hl hnone k).store, (h.revoked l hl hnone k).pending⟩
  notified := by
    intro j rest' hj
    change Function.update p.notifying i (some rest) j = some rest' at hj
    by_cases hji : j = i
    · subst hji
      rw [update_self] at hj
      obtain rfl := some.inj hj
      exact ⟨r, seen, ids, grantIds, hi, fun id hid k hk ↦
        ⟨(hids id hid k hk).store, (hids id hid k hk).pending⟩⟩
    · rw [update_of_ne hji] at hj
      obtain ⟨r', seen', ids', grantIds', ht, hids'⟩ := h.notified j rest' hj
      exact ⟨r', seen', ids', grantIds', ht, fun id hid k hk ↦
        ⟨(hids' id hid k hk).store, (hids' id hid k hk).pending⟩⟩
  outside := fun k hk id ↦ ⟨(h.outside k hk id).store, (h.outside k hk id).pending⟩
  callers := h.callers

/-! ## Steps -/

theorem Without.setStore {k k' : ℕ} {id : LeaseId} {st : HandleStore} (h : p.Without k' id)
    (hst : k' = k → st.Without id) : (p.setStore k st).Without k' id := by
  refine ⟨?_, h.pending⟩
  change (Function.update p.stores k st k').Without id
  by_cases hk : k' = k
  · subst hk
    rw [update_self]
    exact hst rfl
  · rw [update_of_ne hk]
    exact h.store

theorem Wiped.inner (h : Wiped p) {l : Label} (hinner : l.Inner) (hstep : p.world.step l = some w)
    (hcallers : ∀ c ∈ callers, c.2 ∈ p.listeners) :
    Wiped { p with world := w, callers := callers } := by
  obtain ⟨i, ids, t, rfl, hmoved⟩ := moved_of_step hinner hstep
  refine h.advance (h.secured.move hmoved) (fun l hl hnone ↦ .inl ⟨l, hl, rfl, hnone⟩) ?_ hcallers
  intro j rest hj
  refine ⟨hj, fun r seen ids' grantIds ht ↦ ?_⟩
  have hji : j ≠ i := by
    rintro rfl
    exact hmoved.updated r seen ids' grantIds ht
  exact if_neg hji

theorem Wiped.commitIssue (h : Wiped p) (hstep : p.world.step (.commitIssue i) = some w) :
    Wiped { p with world := w } := by
  obtain ⟨q, began, l, hi, hfresh, rfl⟩ := step_commitIssue hstep
  have hnone := (h.secured.holding i _ hi).inserted l rfl
  refine h.advance (h.secured.commitIssue i hfresh _) (fun x hx hx' ↦ ?_) ?_ h.callers
  · rcases mem_append.1 hx with hx | hx
    · exact .inl ⟨x, hx, rfl, hx'⟩
    · obtain rfl := mem_singleton.1 hx
      exact absurd hnone hx'
  · intro j rest hj
    refine ⟨hj, fun r seen ids grantIds ht ↦ if_neg ?_⟩
    rintro rfl
    rw [hi] at ht
    cases ht

theorem mem_returned {put : Put} (h : put ∈ p.returned i) :
    ∃ k q began l value, (i, k) ∈ p.callers ∧
      p.world.transactions i = some (.resolve q began (.read l value)) ∧
        put = ⟨k, q.handle, l.leaseId, value⟩ := by
  unfold returned at h
  split at h
  · rename_i k q began l value hk hi
    obtain ⟨l₁, l₂, hcallers, -⟩ := lookup_eq_some_iff.1 hk
    refine ⟨k, q, began, l, value, ?_, hi, mem_singleton.1 h⟩
    rw [hcallers]
    exact mem_append_right _ mem_cons_self
  · cases h

theorem Wiped.commitResolve (h : Wiped p) (hstep : p.world.step (.commitResolve i) = some w) :
    Wiped { p.finish i w with pending := p.pending ++ p.returned i } := by
  obtain ⟨q, began, l, value, hi, rfl⟩ := step_commitResolve hstep
  have hheld := (h.secured.holding i _ hi).lease l rfl
  have hsecured : Secured { p.world.close i with
      leases := p.world.leases.map (countUse l.leaseId q.now)
      answers := p.world.answers ++ [⟨l.leaseId, began, q.now, value⟩] } :=
    h.secured.finish rfl rfl rfl (leaseId_countUse _ _) (Secured.countUse_other hheld q.now)
  have hrow : ∀ x, (countUse l.leaseId q.now x).revokedAt = x.revokedAt := by
    intro x
    unfold countUse
    split_ifs <;> rfl
  have hfinish := h.finish (i := i) hsecured (fun x hx hnone ↦ ?_) fun j hj ↦ if_neg hj
  · have hput : ∀ put ∈ p.returned i, put.leaseId = l.leaseId ∧ (i, put.store) ∈ p.callers := by
      intro put hput
      obtain ⟨k, q', began', l', value', hk, hi', rfl⟩ := mem_returned hput
      rw [hi] at hi'
      cases hi'
      exact ⟨rfl, hk⟩
    refine hfinish.pend ?_ ?_ ?_
    · intro put hmem x hx hid
      obtain ⟨y, hy, rfl⟩ := List.mem_map.1 hx
      rw [leaseId_countUse, (hput put hmem).1] at hid
      rw [hrow, inj_on_of_nodup_map h.secured.leaseIds hy hheld.mem hid]
      exact hheld.revokedAt
    · intro put hmem j r seen ids grantIds ht hid
      rw [(hput put hmem).1] at hid
      -- the lease is locked by the resolve
      have hlock := (hsecured.holding j _ ht).ids _ hid
      have hclosed : (p.world.close i).locks l.leaseId = none := if_pos hheld.lock
      exact absurd (hclosed.symm.trans hlock) nofun
    · exact fun put hmem ↦ h.callers _ (hput put hmem).2
  · obtain ⟨y, hy, rfl⟩ := List.mem_map.1 hx
    exact .inl ⟨y, hy, (leaseId_countUse _ _ y).symm, hrow y ▸ hnone⟩

theorem Wiped.commitRevoke (h : Wiped p) (hnotified : p.Notified i)
    (hstep : p.world.step (.commitRevoke i) = some w) : Wiped (p.finish i w) := by
  obtain ⟨r, seen, ids, grantIds, hi, rfl⟩ := step_commitRevoke hstep
  have hids := (h.secured.holding i _ hi).ids
  have hwiped : ∀ id ∈ ids, ∀ k, p.Without k id := by
    intro id hid k
    rw [Notified, hi] at hnotified
    rcases hnotified with ⟨rfl, -⟩ | hnone
    · cases hid
    · obtain ⟨r', seen', ids', grantIds', hi', hwithout⟩ := h.notified i [] hnone
      rw [hi] at hi'
      cases hi'
      exact hwithout id hid k not_mem_nil
  refine h.finish ?_ (fun x hx hnone ↦ ?_) fun j hj ↦ if_neg hj
  · exact h.secured.finish rfl rfl rfl (fun l ↦ (later_revokeLease ids r.now l).leaseId)
      (Secured.revokeLease_other hids r.now)
  · obtain ⟨y, hy, rfl⟩ := List.mem_map.1 hx
    by_cases hid : y.leaseId ∈ ids
    · right
      rw [(later_revokeLease ids r.now y).leaseId]
      exact hwiped _ hid
    · left
      rw [revokeLease, if_neg hid] at hnone ⊢
      exact ⟨y, hy, rfl, hnone⟩

theorem Wiped.stop (h : Wiped p) (i : ℕ) : Wiped (p.finish i (p.world.close i)) :=
  h.finish (h.secured.finish (f := id) rfl rfl (List.map_id _).symm (fun _ ↦ rfl)
    fun _ _ _ _ ↦ rfl) (fun l hl hnone ↦ .inl ⟨l, hl, rfl, hnone⟩) fun _ hj ↦ if_neg hj

theorem Wiped.listen (h : Wiped p) (hsettled : p.Settled (.listen i))
    (hstep : p.step (.listen i) = some p') : Wiped p' := by
  rw [step] at hstep
  rw [Settled] at hsettled
  split at hstep
  · rename_i k rest r seen ids grantIds hrest hi
    rw [hrest, hi] at hsettled
    obtain rfl := some.inj hstep
    obtain ⟨r', seen', ids', grantIds', hi', hwithout⟩ := h.notified i _ hrest
    rw [hi] at hi'
    cases hi'
    have hwiped : Wiped (p.setStore k ((p.stores k).wipe ids)) :=
      h.of_without rfl rfl rfl (List.Subset.refl _) fun k' id hk' ↦
        hk'.setStore (by rintro rfl; exact hk'.store.wipe ids)
    refine hwiped.notify hi fun id hid k' hk' ↦ ?_
    by_cases heq : k' = k
    · subst heq
      refine ⟨?_, fun q hq hqk hqid ↦ hsettled q hq hqk (hqid ▸ hid)⟩
      change (Function.update p.stores k' _ k').Without id
      rw [update_self]
      exact HandleStore.without_wipe _ hid
    · refine (hwithout id hid k' ?_).setStore fun hk ↦ absurd hk heq
      simp [heq, hk']
  · cases hstep

theorem Wiped.put (h : Wiped p) {n : ℕ} (hstep : p.step (.put n) = some p') : Wiped p' := by
  rw [step] at hstep
  split at hstep
  · rename_i q hn
    obtain rfl := some.inj hstep
    refine h.of_without rfl rfl rfl (List.Subset.refl _) fun k id hk ↦ ?_
    refine ⟨(hk.setStore ?_).store, fun q' hq' ↦ hk.pending q' (mem_of_mem_eraseIdx hq')⟩
    rintro rfl
    exact hk.store.put (hk.pending q (mem_of_getElem? hn) rfl) _ _
  · cases hstep

theorem Wiped.step {a : Action} (h : Wiped p) (hsettled : p.Settled a)
    (hstep : p.step a = some p') : Wiped p' := by
  -- the statements that only move their transaction on
  have hinner : ∀ {l : Label}, l.Inner →
      (p.world.step l).map (fun w ↦ { p with world := w }) = some p' → Wiped p' := by
    intro l hl hmap
    obtain ⟨w, hw, rfl⟩ := map_eq_some_iff.1 hmap
    exact h.inner hl hw h.callers
  cases a with
  | create =>
    rw [Process.step] at hstep
    split_ifs at hstep
    obtain rfl := some.inj hstep
    exact h.of_without rfl rfl rfl (subset_append_left _ _) fun _ _ hk ↦ ⟨hk.store, hk.pending⟩
  | call k i q =>
    rw [Process.step] at hstep
    split_ifs at hstep with hk
    obtain ⟨w, hw, rfl⟩ := map_eq_some_iff.1 hstep
    refine h.inner (l := .beginResolve i q) trivial hw fun c hc ↦ ?_
    rcases mem_append.1 hc with hc | hc
    · exact h.callers c hc
    · rw [mem_singleton.1 hc]
      exact hk
  | statement l =>
    cases l with
    | commitResolve =>
      obtain ⟨w, hw, rfl⟩ := map_eq_some_iff.1 hstep
      exact h.commitResolve hw
    | commitRevoke =>
      rw [Process.step] at hstep
      split_ifs at hstep with hnotified
      obtain ⟨w, hw, rfl⟩ := map_eq_some_iff.1 hstep
      exact h.commitRevoke hnotified hw
    | stop i =>
      rw [Process.step] at hstep
      obtain ⟨w, hw, rfl⟩ := map_eq_some_iff.1 hstep
      obtain rfl := some.inj hw
      exact h.stop i
    | commitIssue =>
      obtain ⟨w, hw, rfl⟩ := map_eq_some_iff.1 hstep
      exact h.commitIssue hw
    | beginIssue | readGrants | insertLease | beginResolve | lockLease | readGrant | readSecret
    | beginRevoke | scanLeases | updateLeases | updateGrants =>
      change (p.world.step _).map _ = some p' at hstep
      exact hinner (by trivial) hstep
  | notify i =>
    rw [Process.step] at hstep
    split at hstep
    · rename_i r seen ids grantIds hnone hi
      split_ifs at hstep
      obtain rfl := some.inj hstep
      exact h.notify hi fun id _ k hk ↦ h.outside k hk id
    · cases hstep
  | listen => exact h.listen hsettled hstep
  | put => exact h.put hstep
  | cleanup k leaseIds =>
    obtain rfl := some.inj hstep
    exact h.of_without rfl rfl rfl (List.Subset.refl _) fun k' id hk' ↦
      hk'.setStore (by rintro rfl; exact hk'.store.wipe leaseIds)

theorem Wiped.start (grants : List GrantRow) : Wiped (start grants) where
  secured := ⟨nodup_nil, fun _ _ ht ↦ (nomatch ht)⟩
  revoked := forall_mem_nil _
  notified := fun _ _ hi ↦ (nomatch hi)
  outside := fun _ _ id ↦ ⟨.empty id, forall_mem_nil _⟩
  callers := forall_mem_nil _

theorem Run.wiped (hrun : Run Settled p as p') (h : Wiped p) : Wiped p' := by
  induction hrun with
  | nil => exact h
  | cons hstep hC _ ih => exact ih (h.step hC hstep)

/-- When every listener is called after the values of its leases have been put away, what has been
revoked is gone from the process. -/
theorem no_live_bytes {grants : List GrantRow} {p : Process} {as : List Action}
    (hrun : Run Settled (start grants) as p) : p.NoLiveBytes :=
  fun _ _ l hl hnone k ↦ ((hrun.wiped (.start grants)).revoked l hl hnone k).store.holds

/-! ## Two runs -/

def runActions (C : Process → Action → Prop) [∀ p a, Decidable (C p a)] (p : Process) :
    List Action → Option Process
  | [] => some p
  | a :: as => if C p a then (p.step a).bind fun p₁ ↦ p₁.runActions C as else none

theorem run_of_runActions {C : Process → Action → Prop} [∀ p a, Decidable (C p a)] :
    ∀ {p p' : Process}, p.runActions C as = some p' → Run C p as p' := by
  induction as with
  | nil =>
    intro p p' h
    obtain rfl := some.inj h
    exact .nil p
  | cons a _ ih =>
    intro p p' h
    rw [runActions] at h
    split_ifs at h with hC
    obtain ⟨p₁, hstep, hrest⟩ := bind_eq_some_iff.1 h
    exact .cons hstep hC (ih hrest)

end Process

namespace Sample

/-- A store resolves a handle, up to the commit of the transaction. -/
def answered : List Action :=
  [.create 0] ++ (issuing 0 "5f0c" firstHandle ++ [Label.commitIssue 0]).map .statement ++
    [.call 0 1 (resolveRequest firstHandle)] ++
    [Label.lockLease 1, .readGrant 1 [], .readSecret 1 [7, 8, 9], .commitResolve 1].map .statement

def wiped : List Action :=
  [Label.beginRevoke 2 revokeTask, .scanLeases 2, .updateLeases 2, .updateGrants 2].map .statement ++
    [.notify 2, .listen 2, .statement (.commitRevoke 2)]

end Sample

open Sample

/-- The store has put the value away before it is called. -/
theorem no_live_bytes_put_before : ∃ p, Process.Run Process.Settled (.start [wideGrant])
      (answered ++ .put 0 :: Sample.wiped) p ∧ p.world.revocations = [revokeTask] ∧
        p.NoLiveBytes := by
  have hrun : (((Process.start [wideGrant]).runActions Process.Settled
      (answered ++ .put 0 :: Sample.wiped)).any fun p ↦
        p.world.revocations = [revokeTask]) = true := by decide +kernel
  obtain ⟨p, hp, hfacts⟩ := (Option.any_eq_true _ _).1 hrun
  have h := Process.run_of_runActions hp
  exact ⟨p, h, of_decide_eq_true hfacts, Process.no_live_bytes h⟩

/-- The store puts a value away when the revocation of its lease has called it and has
committed. -/
theorem live_bytes_put_after : ∃ p, Process.Run (fun _ _ ↦ True) (.start [wideGrant])
      (answered ++ Sample.wiped ++ [.put 0]) p ∧ ¬p.NoLiveBytes := by
  have hrun : (((Process.start [wideGrant]).runActions (fun _ _ ↦ True)
      (answered ++ Sample.wiped ++ [.put 0])).any fun p ↦
        p.pending.isEmpty ∧ p.callers = [] ∧ ∃ l ∈ p.world.leases, l.revokedAt ≠ none ∧
          (p.stores 0).holds l.leaseId = true) = true := by decide +kernel
  obtain ⟨p, hp, hfacts⟩ := (Option.any_eq_true _ _).1 hrun
  obtain ⟨hpending, hcallers, l, hl, hrevoked, hholds⟩ := of_decide_eq_true hfacts
  refine ⟨p, Process.run_of_runActions hp, fun h ↦ ?_⟩
  rw [h (List.isEmpty_iff.1 hpending) hcallers l hl hrevoked 0] at hholds
  cases hholds

end AgentColab.Secrets
