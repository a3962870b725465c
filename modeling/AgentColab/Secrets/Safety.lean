import AgentColab.Secrets.Transactions
import Mathlib.Data.List.Nodup
import Mathlib.Order.Nat
import AgentColab.Domain.Runs

/-!
# What a resolve may still answer

A resolve holds its lease until it has counted the use, so a lease for one use is answered once. It
reads the grant without a lock, after a revocation that committed before it began. A revocation
reaches every lease of its target that is committed when its first update looks for its rows, and
every lease under a grant of its target. A lease that is committed later is out of its reach when
the revocation does not reach the grant: the kind `lease` revokes no grant, and the kind `task` none
that names no task.
-/

namespace AgentColab.Secrets

open List Option
open World (countUse revokeLease revokeGrant newLease start)

/-! ## What becomes of a row -/

/-- `g'` is the grant `g`, some steps later. -/
structure GrantRow.Later (g g' : GrantRow) : Prop where
  grantId : g'.grantId = g.grantId
  workspaceId : g'.workspaceId = g.workspaceId
  secretRef : g'.secretRef = g.secretRef
  agentId : g'.agentId = g.agentId
  taskId : g'.taskId = g.taskId
  revokedAt : g.revokedAt ≠ none → g'.revokedAt ≠ none

theorem GrantRow.Later.refl (g : GrantRow) : g.Later g := ⟨rfl, rfl, rfl, rfl, rfl, id⟩

/-- `l'` is the lease `l`, some steps later. -/
structure LeaseRow.Later (l l' : LeaseRow) : Prop where
  leaseId : l'.leaseId = l.leaseId
  workspaceId : l'.workspaceId = l.workspaceId
  grantId : l'.grantId = l.grantId
  secretRef : l'.secretRef = l.secretRef
  agentId : l'.agentId = l.agentId
  taskId : l'.taskId = l.taskId
  singleUse : l'.singleUse = l.singleUse
  expiresAt : l'.expiresAt = l.expiresAt
  revokedAt : l.revokedAt ≠ none → l'.revokedAt ≠ none

theorem LeaseRow.Later.refl (l : LeaseRow) : l.Later l :=
  ⟨rfl, rfl, rfl, rfl, rfl, rfl, rfl, rfl, id⟩

theorem or_some_ne_none (x : Option Time) (now : Time) : x.or (some now) ≠ none := by
  cases x <;> simp

theorem later_countUse (id : LeaseId) (now : Time) (l : LeaseRow) :
    l.Later (countUse id now l) := by
  unfold countUse
  split_ifs
  · exact ⟨rfl, rfl, rfl, rfl, rfl, rfl, rfl, rfl, fun h ↦ h⟩
  · exact .refl l

theorem later_revokeLease (ids : List LeaseId) (now : Time) (l : LeaseRow) :
    l.Later (revokeLease ids now l) := by
  unfold revokeLease
  split_ifs
  · exact ⟨rfl, rfl, rfl, rfl, rfl, rfl, rfl, rfl, fun _ ↦ or_some_ne_none _ _⟩
  · exact .refl l

theorem later_revokeGrant (ids : List String) (now : Time) (g : GrantRow) :
    g.Later (revokeGrant ids now g) := by
  unfold revokeGrant
  split_ifs
  · exact ⟨rfl, rfl, rfl, rfl, rfl, fun _ ↦ or_some_ne_none _ _⟩
  · exact .refl g

variable {ids : List LeaseId} {now : Time} {l l' : LeaseRow} {g g' : GrantRow}
    {grants : List GrantRow} {r : Revoke} {w w' : World} {began i j seen : ℕ}
    {x : Option Transaction} {q : ResolveRequest} {grantIds : List String} {ls : List Label}

theorem revokedAt_revokeLease (h : l.leaseId ∈ ids) :
    (revokeLease ids now l).revokedAt ≠ none := by
  rw [revokeLease, if_pos h]
  exact or_some_ne_none _ _

theorem revokedAt_revokeGrant {ids : List String} (h : g.grantId ∈ ids) :
    (revokeGrant ids now g).revokedAt ≠ none := by
  rw [revokeGrant, if_pos h]
  exact or_some_ne_none _ _

theorem Revoke.targets_later (h : l.Later l') (r : Revoke) : r.Targets l' ↔ r.Targets l := by
  unfold Revoke.Targets
  rw [h.workspaceId, h.leaseId, h.grantId, h.taskId, h.agentId, h.secretRef]

theorem Revoke.targetsGrant_later (h : g.Later g') (r : Revoke) :
    r.TargetsGrant g' ↔ r.TargetsGrant g := by
  unfold Revoke.TargetsGrant
  rw [h.workspaceId, h.grantId, h.taskId, h.agentId, h.secretRef]

/-- `l` was issued under `g`. -/
structure GrantRow.Covers (g : GrantRow) (l : LeaseRow) : Prop where
  grantId : g.grantId = l.grantId
  workspaceId : g.workspaceId = l.workspaceId
  secretRef : g.secretRef = l.secretRef
  agentId : g.agentId = l.agentId

theorem GrantRow.Covers.later (h : g.Covers l) (hg : g.Later g') (hl : l.Later l') :
    g'.Covers l' where
  grantId := by rw [hg.grantId, hl.grantId, h.grantId]
  workspaceId := by rw [hg.workspaceId, hl.workspaceId, h.workspaceId]
  secretRef := by rw [hg.secretRef, hl.secretRef, h.secretRef]
  agentId := by rw [hg.agentId, hl.agentId, h.agentId]

/-- A resolve of the lease is refused: the lease or its grant has been revoked. -/
def Dead (grants : List GrantRow) (l : LeaseRow) : Prop :=
  l.revokedAt ≠ none ∨ ∃ g ∈ grants, g.grantId = l.grantId ∧ g.revokedAt ≠ none

instance (grants : List GrantRow) (l : LeaseRow) : Decidable (Dead grants l) := by
  unfold Dead
  infer_instance

theorem Dead.later (h : Dead grants l) {f : GrantRow → GrantRow}
    (hf : ∀ g : GrantRow, g.Later (f g)) (hl : l.Later l') : Dead (grants.map f) l' := by
  rcases h with h | ⟨g, hg, hid, hrevoked⟩
  · exact .inl (hl.revokedAt h)
  · exact .inr ⟨f g, List.mem_map_of_mem hg, by rw [(hf g).grantId, hl.grantId, hid],
      (hf g).revokedAt hrevoked⟩

/-! ## The condition -/

/-- The kinds that can miss the grant of a lease of their target. -/
def Revoke.Narrow (r : Revoke) : Prop := r.kind = .lease ∨ r.kind = .task

instance (r : Revoke) : Decidable r.Narrow := by
  unfold Revoke.Narrow
  infer_instance

theorem Revoke.targetsGrant_of_covers (hnarrow : ¬r.Narrow) (hg : g.Covers l) (h : r.Targets l) :
    r.TargetsGrant g := by
  obtain ⟨hw, ht⟩ := h
  refine ⟨hg.workspaceId.trans hw, ?_⟩
  unfold Revoke.Narrow at hnarrow
  cases hkind : r.kind with
  | lease => exact absurd (.inl hkind) hnarrow
  | task => exact absurd (.inr hkind) hnarrow
  | grant =>
    rw [hkind] at ht
    exact hg.grantId.trans ht
  | agent =>
    rw [hkind] at ht
    exact hg.agentId.trans ht
  | secret =>
    rw [hkind] at ht
    exact hg.secretRef.trans ht

/-- No lease of the target of a revocation of a task or of a lease, under a grant that is live,
is committed between the first update of the revocation and its commit, nor after its commit by a
transaction that began before it. -/
def Timely (w : World) : Label → Prop
  | .commitIssue i =>
    match w.transactions i with
    | some (.issue _ began (.inserted l)) =>
      ∀ r ∈ w.revocations.drop began, r.Narrow → r.Targets l → Dead w.grants l
    | _ => True
  | .commitRevoke i =>
    match w.transactions i with
    | some (.revoke r (.grants seen _ grantIds)) =>
      r.Narrow → ∀ l ∈ w.leases.drop seen, r.Targets l →
        Dead (w.grants.map (revokeGrant grantIds r.now)) l
    | _ => True
  | _ => True

instance (w : World) (l : Label) : Decidable (Timely w l) := by
  unfold Timely
  split
  · split <;> infer_instance
  · split <;> infer_instance
  · infer_instance

/-! ## What holds of the committed rows -/

/-- A resolve that began after `b` revocations can only find a lease that was issued after those
that target it. -/
def After (w : World) (b : ℕ) (l : LeaseRow) : Prop :=
  ∀ k r, k < b → w.revocations[k]? = some r → r.Targets l → k < w.issued l.leaseId

/-- The number of resolves that have answered a lease. -/
def answersOf (answers : List Answer) (id : LeaseId) : ℕ := answers.countP (·.leaseId = id)

structure Sound (w : World) : Prop where
  grantIds : (w.grants.map GrantRow.grantId).Nodup
  leaseIds : (w.leases.map LeaseRow.leaseId).Nodup
  covered : ∀ l ∈ w.leases, ∃ g ∈ w.grants, g.Covers l
  counted : ∀ l ∈ w.leases, answersOf w.answers l.leaseId = l.useCount
  single : ∀ l ∈ w.leases, l.singleUse = true → l.useCount ≤ 1
  answered : ∀ a ∈ w.answers, ∃ l ∈ w.leases, l.leaseId = a.leaseId ∧ a.now < l.expiresAt
  began : ∀ a ∈ w.answers, a.began ≤ w.revocations.length
  late : ∀ a ∈ w.answers, ∀ l ∈ w.leases, l.leaseId = a.leaseId → After w a.began l
  revoked : ∀ r ∈ w.revocations, ∀ g ∈ w.grants, r.TargetsGrant g → g.revokedAt ≠ none
  reached : ∀ k r, w.revocations[k]? = some r → ∀ l ∈ w.leases, r.Targets l →
    w.issued l.leaseId ≤ k → Dead w.grants l
  issued : ∀ l ∈ w.leases, w.issued l.leaseId ≤ w.revocations.length

theorem Sound.same (h : Sound w) (hg : w'.grants = w.grants) (hl : w'.leases = w.leases)
    (hi : w'.issued = w.issued) (hr : w'.revocations = w.revocations)
    (ha : w'.answers = w.answers) : Sound w' := by
  obtain ⟨grants, leases, locks, transactions, issued, revocations, answers⟩ := w'
  obtain rfl : grants = _ := hg
  obtain rfl : leases = _ := hl
  obtain rfl : issued = _ := hi
  obtain rfl : revocations = _ := hr
  obtain rfl : answers = _ := ha
  exact ⟨h.grantIds, h.leaseIds, h.covered, h.counted, h.single, h.answered, h.began, h.late,
    h.revoked, h.reached, h.issued⟩

theorem Sound.lease_eq (h : Sound w) (hl : l ∈ w.leases) (hl' : l' ∈ w.leases)
    (hid : l.leaseId = l'.leaseId) : l = l' :=
  inj_on_of_nodup_map h.leaseIds hl hl' hid

theorem Sound.not_dead (h : Sound w) (hload : w.loadGrant l.grantId = some g)
    (hl : l.revokedAt = none) (hg : g.revokedAt = none) : ¬Dead w.grants l := by
  have hmem := mem_of_find?_eq_some hload
  have hid : g.grantId = l.grantId := by simpa using List.find?_some hload
  rintro (hrevoked | ⟨g', hg', hid', hrevoked⟩)
  · exact hrevoked hl
  · rw [inj_on_of_nodup_map h.grantIds hg' hmem (hid'.trans hid.symm)] at hrevoked
    exact hrevoked hg

/-! ## What an open transaction has read -/

/-- The transaction `i` holds the lease, as it is. -/
structure Held (w : World) (i : ℕ) (l : LeaseRow) : Prop where
  mem : l ∈ w.leases
  revokedAt : l.revokedAt = none
  lock : w.locks l.leaseId = some i

/-- What a resolve has found once it has read the grant. -/
structure Checked (w : World) (i : ℕ) (q : ResolveRequest) (began : ℕ) (l : LeaseRow) : Prop where
  held : Held w i l
  now : q.now < l.expiresAt
  unused : ¬(l.singleUse = true ∧ 0 < l.useCount)
  after : After w began l

/-- What a revocation has found: every lease of its target that was committed is revoked, or is
among `ids`. -/
structure Found (w : World) (r : Revoke) (seen : ℕ) (ids : List LeaseId) : Prop where
  seen_le : seen ≤ w.leases.length
  leases : ∀ l ∈ w.leases.take seen, r.Targets l → l.revokedAt ≠ none ∨ l.leaseId ∈ ids

def Knows (w : World) (i : ℕ) : Transaction → Prop
  | .issue q began (.granted g) =>
    began ≤ w.revocations.length ∧ ∀ l, newLease q g = some l → ∃ g' ∈ w.grants, g'.Covers l
  | .issue _ began (.inserted l) =>
    began ≤ w.revocations.length ∧ l.useCount = 0 ∧ ∃ g ∈ w.grants, g.Covers l
  | .issue _ began .started => began ≤ w.revocations.length
  | .resolve _ began .started => began ≤ w.revocations.length
  | .resolve _ began (.locked l) => began ≤ w.revocations.length ∧ Held w i l
  | .resolve q began (.granted l) => began ≤ w.revocations.length ∧ Checked w i q began l
  | .resolve q began (.read l _) => began ≤ w.revocations.length ∧ Checked w i q began l
  | .revoke _ .started => True
  | .revoke r (.scanned seen candidates) => Found w r seen candidates
  | .revoke r (.leases seen ids) => Found w r seen ids ∧ ∀ id ∈ ids, w.locks id = some i
  | .revoke r (.grants seen ids grantIds) =>
    Found w r seen ids ∧ (∀ id ∈ ids, w.locks id = some i) ∧
      ∀ g ∈ w.grants, r.TargetsGrant g → g.revokedAt ≠ none ∨ g.grantId ∈ grantIds

/-- What the steps of others leave to the transaction `i`. -/
structure Leaves (w w' : World) (i : ℕ) : Prop where
  grants : ∃ f : GrantRow → GrantRow, (∀ g : GrantRow, g.Later (f g)) ∧ w'.grants = w.grants.map f
  leases : ∃ (f : LeaseRow → LeaseRow) (new : List LeaseRow), (∀ l : LeaseRow, l.Later (f l)) ∧
    w'.leases = w.leases.map f ++ new
  held : ∀ l ∈ w.leases, w.locks l.leaseId = some i → l ∈ w'.leases
  locks : ∀ id, w.locks id = some i → w'.locks id = some i
  revocations : w.revocations <+: w'.revocations
  issued : ∀ l ∈ w.leases, w'.issued l.leaseId = w.issued l.leaseId

namespace Leaves

variable {w w' : World} {i : ℕ}

theorem of_same (hg : w'.grants = w.grants) (hl : w'.leases = w.leases)
    (hi : w'.issued = w.issued) (hr : w'.revocations = w.revocations)
    (hlocks : ∀ id, w.locks id = some i → w'.locks id = some i) : Leaves w w' i where
  grants := ⟨id, .refl, by rw [hg, List.map_id]⟩
  leases := ⟨id, [], .refl, by rw [hl, List.map_id, append_nil]⟩
  held := fun l hmem _ ↦ hl ▸ hmem
  locks := hlocks
  revocations := hr ▸ prefix_rfl
  issued := fun l _ ↦ by rw [hi]

theorem began_le (h : Leaves w w' i) (hb : began ≤ w.revocations.length) :
    began ≤ w'.revocations.length :=
  hb.trans h.revocations.length_le

variable {l : LeaseRow}

theorem covers (h : Leaves w w' i) (hl : ∃ g ∈ w.grants, g.Covers l) :
    ∃ g ∈ w'.grants, g.Covers l := by
  obtain ⟨f, hf, hgrants⟩ := h.grants
  obtain ⟨g, hg, hcovers⟩ := hl
  exact ⟨f g, hgrants ▸ List.mem_map_of_mem hg, hcovers.later (hf g) (.refl l)⟩

theorem held_later (h : Leaves w w' i) (hl : Held w i l) : Held w' i l :=
  ⟨h.held l hl.mem hl.lock, hl.revokedAt, h.locks _ hl.lock⟩

theorem after (h : Leaves w w' i) {b : ℕ} (hb : b ≤ w.revocations.length) (hmem : l ∈ w.leases)
    (hl : After w b l) : After w' b l := by
  intro k r hk hr htargets
  rw [h.issued l hmem]
  obtain ⟨new, hnew⟩ := h.revocations
  rw [← hnew, List.getElem?_append_left (hk.trans_le hb)] at hr
  exact hl k r hk hr htargets

theorem found (h : Leaves w w' i) (hfound : Found w r seen ids) : Found w' r seen ids := by
  obtain ⟨f, new, hf, hleases⟩ := h.leases
  constructor
  · rw [hleases, length_append, length_map]
    exact hfound.seen_le.trans (Nat.le_add_right _ _)
  · intro l hl htargets
    rw [hleases, take_append_of_le_length (by simpa using hfound.seen_le), ← map_take]
      at hl
    obtain ⟨l₀, hl₀, rfl⟩ := List.mem_map.1 hl
    rw [r.targets_later (hf l₀)] at htargets
    rcases hfound.leases l₀ hl₀ htargets with hrevoked | hid
    · exact .inl ((hf l₀).revokedAt hrevoked)
    · exact .inr (by rw [(hf l₀).leaseId]; exact hid)

theorem knows (h : Leaves w w' i) {t : Transaction} (hknows : Knows w i t) : Knows w' i t := by
  have hchecked : ∀ {q began l}, began ≤ w.revocations.length ∧ Checked w i q began l →
      began ≤ w'.revocations.length ∧ Checked w' i q began l := by
    rintro q began l ⟨hb, hl⟩
    exact ⟨h.began_le hb, h.held_later hl.held, hl.now, hl.unused, h.after hb hl.held.mem hl.after⟩
  cases t with
  | issue q _ phase =>
    cases phase with
    | started => exact h.began_le hknows
    | granted => exact ⟨h.began_le hknows.1, fun l hl ↦ h.covers (hknows.2 l hl)⟩
    | inserted => exact ⟨h.began_le hknows.1, hknows.2.1, h.covers hknows.2.2⟩
  | resolve q _ phase =>
    cases phase with
    | started => exact h.began_le hknows
    | locked => exact ⟨h.began_le hknows.1, h.held_later hknows.2⟩
    | granted => exact hchecked hknows
    | read => exact hchecked hknows
  | revoke r phase =>
    cases phase with
    | started => trivial
    | scanned => exact h.found hknows
    | leases => exact ⟨h.found hknows.1, fun id hid ↦ h.locks id (hknows.2 id hid)⟩
    | grants =>
      refine ⟨h.found hknows.1, fun id hid ↦ h.locks id (hknows.2.1 id hid), ?_⟩
      obtain ⟨f, hf, hgrants⟩ := h.grants
      intro g hg htargets
      rw [hgrants] at hg
      obtain ⟨g₀, hg₀, rfl⟩ := List.mem_map.1 hg
      rw [r.targetsGrant_later (hf g₀)] at htargets
      rcases hknows.2.2 g₀ hg₀ htargets with hrevoked | hid
      · exact .inl ((hf g₀).revokedAt hrevoked)
      · exact .inr (by rw [(hf g₀).grantId]; exact hid)

end Leaves

/-- The rows, and what the open transactions have read of them. -/
structure Inv (w : World) : Prop where
  sound : Sound w
  knows : ∀ i t, w.transactions i = some t → Knows w i t

theorem Inv.next (h : Inv w) (hsound : Sound w')
    (hset : ∀ j, w'.transactions j = if j = i then x else w.transactions j)
    (hleaves : ∀ j ≠ i, Leaves w w' j) (hx : ∀ t, x = some t → Knows w' i t) : Inv w' := by
  refine ⟨hsound, fun j t ht ↦ ?_⟩
  rw [hset j] at ht
  split_ifs at ht with hj
  · subst hj
    exact hx t ht
  · exact (hleaves j hj).knows (h.knows j t ht)

theorem Inv.set (h : Inv w) (hx : ∀ t, x = some t → Knows w i t) : Inv (w.set i x) := by
  have hleaves : ∀ j, Leaves w (w.set i x) j := fun j ↦ .of_same rfl rfl rfl rfl fun _ ↦ id
  exact h.next (h.sound.same rfl rfl rfl rfl rfl) (fun _ ↦ rfl) (fun j _ ↦ hleaves j)
    fun t ht ↦ (hleaves i).knows (hx t ht)

theorem leaves_lock (hfree : ∀ id ∈ ids, w.Free i id) (hj : j ≠ i) :
    Leaves w ((w.lock i ids).set i x) j := by
  refine .of_same rfl rfl rfl rfl fun id hid ↦ ?_
  change (if id ∈ ids then some i else w.locks id) = some j
  have hnot : id ∉ ids := by
    intro hmem
    rcases hfree id hmem with hnone | hown
    · rw [hnone] at hid
      cases hid
    · rw [hown] at hid
      exact hj (some.inj hid).symm
  rw [if_neg hnot, hid]

theorem locks_close (hj : j ≠ i) {id : LeaseId} (h : w.locks id = some j) :
    (w.close i).locks id = some j := by
  change (if w.locks id = some i then none else w.locks id) = some j
  rw [if_neg (by rw [h]; exact fun heq ↦ hj (some.inj heq)), h]

theorem Inv.close (h : Inv w) (i : ℕ) : Inv (w.close i) :=
  h.next (h.sound.same rfl rfl rfl rfl rfl) (fun _ ↦ rfl)
    (fun _ hj ↦ .of_same rfl rfl rfl rfl fun _ hid ↦ locks_close hj hid)
    fun _ ht ↦ (nomatch ht)

/-! ## An issue -/

theorem newLease_eq {q : IssueRequest} (h : newLease q g = some l) :
    l.useCount = 0 ∧ l.workspaceId = q.workspaceId ∧ l.grantId = g.grantId ∧
      l.secretRef = q.secretRef ∧ l.agentId = q.scope.agentId := by
  unfold newLease at h
  dsimp only at h
  split_ifs at h
  obtain rfl := some.inj h
  exact ⟨rfl, rfl, rfl, rfl, rfl⟩

theorem matchingGrant_eq {q : IssueRequest} (h : w.matchingGrant q = some g) :
    g ∈ w.grants ∧ g.workspaceId = q.workspaceId ∧ g.secretRef = q.secretRef ∧
      g.agentId = q.scope.agentId := by
  have hmem := mem_of_find?_eq_some h
  have hp := List.find?_some h
  simp only [decide_eq_true_eq] at hp
  exact ⟨hmem, hp.1, hp.2.1, hp.2.2.1⟩

theorem countP_eq_zero_of_fresh (h : Sound w) (hfresh : w.Fresh l) :
    ∀ a ∈ w.answers, a.leaseId ≠ l.leaseId := by
  intro a ha heq
  obtain ⟨q, hq, hid, -⟩ := h.answered a ha
  exact (hfresh q hq).1 (hid.trans heq)

/-- A lease is committed. What a revocation that has committed in the meantime has not reached is
excluded by the condition. -/
theorem Sound.issue (h : Sound w) (hfresh : w.Fresh l) (hb : began ≤ w.revocations.length)
    (hcount : l.useCount = 0) (hcovers : ∃ g ∈ w.grants, g.Covers l)
    (htimely : ∀ r ∈ w.revocations.drop began, r.Narrow → r.Targets l → Dead w.grants l) :
    Sound { w with
      leases := w.leases ++ [l]
      issued := Function.update w.issued l.leaseId began } := by
  have hnew := countP_eq_zero_of_fresh h hfresh
  have hold : ∀ q ∈ w.leases, Function.update w.issued l.leaseId began q.leaseId =
      w.issued q.leaseId := fun q hq ↦ Function.update_of_ne (hfresh q hq).1 _ _
  have hsplit : ∀ {P : LeaseRow → Prop}, (∀ q ∈ w.leases, P q) → P l →
      ∀ q ∈ w.leases ++ [l], P q := by
    intro P hall hl q hq
    rcases mem_append.1 hq with hq | hq
    · exact hall q hq
    · rw [mem_singleton.1 hq]
      exact hl
  constructor
  · exact h.grantIds
  · rw [map_append, nodup_append]
    refine ⟨h.leaseIds, by simp, ?_⟩
    intro x hx y hy
    obtain ⟨q, hq, rfl⟩ := List.mem_map.1 hx
    obtain rfl : y = l.leaseId := by simpa using hy
    exact (hfresh q hq).1
  · exact hsplit h.covered hcovers
  · refine hsplit h.counted ?_
    rw [hcount, answersOf, countP_eq_zero]
    intro a ha
    simpa using hnew a ha
  · exact hsplit h.single fun _ ↦ by omega
  · intro a ha
    obtain ⟨q, hq, hrest⟩ := h.answered a ha
    exact ⟨q, mem_append_left _ hq, hrest⟩
  · exact h.began
  · intro a ha
    refine hsplit (fun q hq hid ↦ ?_) fun hid ↦ absurd hid.symm (hnew a ha)
    intro k r hk hr htargets
    exact (h.late a ha q hq hid k r hk hr htargets).trans_eq (hold q hq).symm
  · exact h.revoked
  · intro k r hr
    refine hsplit (fun q hq htargets hle ↦ ?_) fun htargets hle ↦ ?_
    · exact h.reached k r hr q hq htargets ((hold q hq).symm.trans_le hle)
    · have hle' : began ≤ k := by simpa using hle
      by_cases hnarrow : r.Narrow
      · refine htimely r ?_ hnarrow htargets
        rw [mem_iff_getElem?]
        exact ⟨k - began, by rw [List.getElem?_drop, Nat.add_sub_cancel' hle', hr]⟩
      · obtain ⟨g, hg, hl⟩ := hcovers
        exact .inr ⟨g, hg, hl.grantId, h.revoked r (mem_of_getElem? hr) g hg
          (r.targetsGrant_of_covers hnarrow hl htargets)⟩
  · refine hsplit (fun q hq ↦ (hold q hq).trans_le (h.issued q hq)) ?_
    simpa using hb

theorem Inv.commitIssue (h : Inv w) {q : IssueRequest}
    (hi : w.transactions i = some (.issue q began (.inserted l))) (hfresh : w.Fresh l)
    (htimely : ∀ r ∈ w.revocations.drop began, r.Narrow → r.Targets l → Dead w.grants l) :
    Inv { w.close i with
      leases := w.leases ++ [l]
      issued := Function.update w.issued l.leaseId began } := by
  obtain ⟨hb, hcount, hcovers⟩ := h.knows i _ hi
  have hsound := h.sound.issue hfresh hb hcount hcovers htimely
  refine h.next (hsound.same rfl rfl rfl rfl rfl) (fun _ ↦ rfl) (fun j hj ↦ ?_)
    fun _ ht ↦ (nomatch ht)
  constructor
  · exact ⟨id, .refl, (List.map_id _).symm⟩
  · exact ⟨id, [l], .refl, by rw [List.map_id]⟩
  · exact fun q hq _ ↦ mem_append_left _ hq
  · exact fun _ hid ↦ locks_close hj hid
  · exact prefix_rfl
  · exact fun q hq ↦ Function.update_of_ne (hfresh q hq).1 _ _

/-! ## A resolve -/

theorem Inv.lockLease (h : Inv w) (hi : w.transactions i = some (.resolve q began .started))
    (hcheck : checkLease q.workspaceId (w.leaseByHandle q.handle) = .ok l)
    (hfree : w.Free i l.leaseId) :
    Inv ((w.lock i [l.leaseId]).set i (some (.resolve q began (.locked l)))) := by
  obtain ⟨hrow, -, hrevoked⟩ := checkLease_ok hcheck
  have hfree' : ∀ id ∈ [l.leaseId], w.Free i id := by
    intro id hid
    rw [mem_singleton.1 hid]
    exact hfree
  refine h.next (h.sound.same rfl rfl rfl rfl rfl) (fun _ ↦ rfl)
    (fun j hj ↦ leaves_lock hfree' hj) fun t ht ↦ ?_
  obtain rfl := some.inj ht
  refine ⟨h.knows i _ hi, mem_of_find?_eq_some hrow, hrevoked, ?_⟩
  exact if_pos (mem_singleton_self _)

theorem Inv.readGrant (h : Inv w) (hi : w.transactions i = some (.resolve q began (.locked l)))
    (hcheck : checkGrant l q.now q.context (w.loadGrant l.grantId) = .ok g) :
    Inv (w.set i (some (.resolve q began (.granted l)))) := by
  obtain ⟨hb, hheld⟩ := h.knows i _ hi
  obtain ⟨hload, hrevoked, hnow, hunused, -⟩ := checkGrant_ok hcheck
  refine h.set fun t ht ↦ ?_
  obtain rfl := some.inj ht
  refine ⟨hb, hheld, hnow, hunused, ?_⟩
  intro k r hk hr htargets
  by_contra hle
  exact h.sound.not_dead hload hheld.revokedAt hrevoked
    (h.sound.reached k r hr l hheld.mem htargets (Nat.not_lt.1 hle))

theorem leaseId_countUse (id : LeaseId) (now : Time) (l : LeaseRow) :
    (countUse id now l).leaseId = l.leaseId :=
  (later_countUse id now l).leaseId

theorem countUse_of_ne {id : LeaseId} (h : l.leaseId ≠ id) : countUse id now l = l := if_neg h

theorem Sound.answer (h : Sound w) (value : Bytes) (hb : began ≤ w.revocations.length)
    (hl : Checked w i q began l) : Sound { w with
      leases := w.leases.map (countUse l.leaseId q.now)
      answers := w.answers ++ [⟨l.leaseId, began, q.now, value⟩] } := by
  have hlater := later_countUse l.leaseId q.now
  -- a row with the identity of the lease is the row that the resolve holds
  have hown : ∀ {x}, x ∈ w.leases → x.leaseId = l.leaseId → x = l :=
    fun hx hid ↦ h.lease_eq hx hl.held.mem hid
  have hmap : ∀ {P : LeaseRow → Prop}, (∀ x ∈ w.leases, P (countUse l.leaseId q.now x)) →
      ∀ x ∈ w.leases.map (countUse l.leaseId q.now), P x := by
    intro P hall x hx
    obtain ⟨y, hy, rfl⟩ := List.mem_map.1 hx
    exact hall y hy
  have hafter : ∀ {b x}, After w b x → ∀ k r, k < b → w.revocations[k]? = some r →
      r.Targets (countUse l.leaseId q.now x) →
        k < w.issued (countUse l.leaseId q.now x).leaseId := by
    intro b x hx k r hk hr htargets
    rw [(hlater x).leaseId]
    exact hx k r hk hr ((r.targets_later (hlater x)).1 htargets)
  constructor
  · exact h.grantIds
  · rw [List.map_map]
    have : LeaseRow.leaseId ∘ countUse l.leaseId q.now = LeaseRow.leaseId :=
      funext (leaseId_countUse _ _)
    rw [this]
    exact h.leaseIds
  · refine hmap fun x hx ↦ ?_
    obtain ⟨g, hg, hcovers⟩ := h.covered x hx
    exact ⟨g, hg, hcovers.later (.refl g) (hlater x)⟩
  · refine hmap fun x hx ↦ ?_
    rw [leaseId_countUse, answersOf, countP_append]
    have hcount := h.counted x hx
    rw [answersOf] at hcount
    rw [hcount, countP_singleton]
    by_cases hid : x.leaseId = l.leaseId
    · rw [countUse, if_pos hid, if_pos (by simpa using hid.symm)]
      rfl
    · rw [countUse_of_ne hid, if_neg (by simpa using fun heq ↦ hid (Eq.symm heq)), Nat.add_zero]
  · refine hmap fun x hx hsingle ↦ ?_
    rw [(hlater x).singleUse] at hsingle
    by_cases hid : x.leaseId = l.leaseId
    · have hzero : ¬0 < l.useCount := fun hpos ↦ hl.unused ⟨hown hx hid ▸ hsingle, hpos⟩
      rw [countUse, if_pos hid, hown hx hid]
      change l.useCount + 1 ≤ 1
      omega
    · rw [countUse_of_ne hid]
      exact h.single x hx hsingle
  · intro a ha
    have hmem : ∀ {x}, x ∈ w.leases → x.leaseId = a.leaseId → a.now < x.expiresAt →
        ∃ y ∈ w.leases.map (countUse l.leaseId q.now),
          y.leaseId = a.leaseId ∧ a.now < y.expiresAt := by
      intro x hx hid hnow
      refine ⟨_, List.mem_map_of_mem hx, (leaseId_countUse _ _ _).trans hid, ?_⟩
      rw [(hlater x).expiresAt]
      exact hnow
    rcases mem_append.1 ha with ha | ha
    · obtain ⟨x, hx, hid, hnow⟩ := h.answered a ha
      exact hmem hx hid hnow
    · obtain rfl := mem_singleton.1 ha
      exact hmem hl.held.mem rfl hl.now
  · intro a ha
    rcases mem_append.1 ha with ha | ha
    · exact h.began a ha
    · obtain rfl := mem_singleton.1 ha
      exact hb
  · intro a ha
    refine hmap fun x hx hid ↦ ?_
    rw [leaseId_countUse] at hid
    rcases mem_append.1 ha with ha | ha
    · exact hafter (h.late a ha x hx hid)
    · obtain rfl := mem_singleton.1 ha
      exact hafter (hown hx hid ▸ hl.after)
  · exact h.revoked
  · intro k r hr
    refine hmap fun x hx htargets hle ↦ ?_
    rw [leaseId_countUse] at hle
    have hdead := h.reached k r hr x hx ((r.targets_later (hlater x)).1 htargets) hle
    simpa using hdead.later (f := id) GrantRow.Later.refl (hlater x)
  · refine hmap fun x hx ↦ ?_
    rw [leaseId_countUse]
    exact h.issued x hx

theorem Inv.commitResolve (h : Inv w) {value : Bytes}
    (hi : w.transactions i = some (.resolve q began (.read l value))) : Inv { w.close i with
      leases := w.leases.map (countUse l.leaseId q.now)
      answers := w.answers ++ [⟨l.leaseId, began, q.now, value⟩] } := by
  obtain ⟨hb, hl⟩ := h.knows i _ hi
  have hsound := h.sound.answer value hb hl
  refine h.next (hsound.same rfl rfl rfl rfl rfl) (fun _ ↦ rfl) (fun j hj ↦ ?_)
    fun _ ht ↦ (nomatch ht)
  constructor
  · exact ⟨id, .refl, (List.map_id _).symm⟩
  · exact ⟨_, [], later_countUse _ _, (append_nil _).symm⟩
  · intro x hx hlock
    -- another transaction holds another row
    have hne : x.leaseId ≠ l.leaseId := by
      intro heq
      rw [heq, hl.held.lock] at hlock
      exact hj (some.inj hlock).symm
    exact List.mem_map.2 ⟨x, hx, countUse_of_ne hne⟩
  · exact fun _ hid ↦ locks_close hj hid
  · exact prefix_rfl
  · exact fun _ _ ↦ rfl

/-! ## A revocation -/

theorem mem_map_filter {α β : Type} {f : α → β} {p : α → Prop} [DecidablePred p] {xs : List α}
    {x : α} (hx : x ∈ xs) (hp : p x) : f x ∈ (xs.filter p).map f :=
  List.mem_map_of_mem (mem_filter.2 ⟨hx, decide_eq_true hp⟩)

theorem Inv.scanLeases (h : Inv w) : Inv (w.set i (some (.revoke r (.scanned w.leases.length
      ((w.leases.filter fun l ↦ l.revokedAt = none ∧ r.Targets l).map LeaseRow.leaseId))))) := by
  refine h.set fun t ht ↦ ?_
  obtain rfl := some.inj ht
  refine ⟨Nat.le_refl _, fun l hl htargets ↦ ?_⟩
  rw [take_length] at hl
  by_cases hrevoked : l.revokedAt = none
  · exact .inr (mem_map_filter hl ⟨hrevoked, htargets⟩)
  · exact .inl hrevoked

theorem Inv.updateLeases (h : Inv w) {candidates : List LeaseId}
    (hi : w.transactions i = some (.revoke r (.scanned seen candidates)))
    (hfree : ∀ id ∈ candidates, w.Free i id) (hids : ids = (w.leases.filter fun l ↦ l.leaseId ∈
    candidates ∧ l.revokedAt = none).map LeaseRow.leaseId) :
    Inv ((w.lock i ids).set i (some (.revoke r (.leases seen ids)))) := by
  have hfound : Found w r seen candidates := h.knows i _ hi
  have hfree' : ∀ id ∈ ids, w.Free i id := by
    intro id hid
    rw [hids] at hid
    obtain ⟨l, hl, rfl⟩ := List.mem_map.1 hid
    have hp := (mem_filter.1 hl).2
    simp only [decide_eq_true_eq] at hp
    exact hfree _ hp.1
  refine h.next (h.sound.same rfl rfl rfl rfl rfl) (fun _ ↦ rfl)
    (fun j hj ↦ leaves_lock hfree' hj) fun t ht ↦ ?_
  obtain rfl := some.inj ht
  refine ⟨⟨hfound.seen_le, fun l hl htargets ↦ ?_⟩, fun id hid ↦ if_pos hid⟩
  rcases hfound.leases l hl htargets with hrevoked | hid
  · exact .inl hrevoked
  · by_cases hrevoked : l.revokedAt = none
    · right
      rw [hids]
      exact mem_map_filter (mem_of_mem_take hl) ⟨hid, hrevoked⟩
    · exact .inl hrevoked

theorem Inv.updateGrants (h : Inv w) (hi : w.transactions i = some (.revoke r (.leases seen ids))) :
    Inv (w.set i (some (.revoke r (.grants seen ids
      ((w.grants.filter fun g ↦ g.revokedAt = none ∧ r.TargetsGrant g).map
        GrantRow.grantId))))) := by
  obtain ⟨hfound, hlocks⟩ := h.knows i _ hi
  refine h.set fun t ht ↦ ?_
  obtain rfl := some.inj ht
  refine ⟨hfound, hlocks, fun g hg htargets ↦ ?_⟩
  by_cases hrevoked : g.revokedAt = none
  · exact .inr (mem_map_filter hg ⟨hrevoked, htargets⟩)
  · exact .inl hrevoked

theorem Sound.revoke (h : Sound w) (hfound : Found w r seen ids)
    (hgrants : ∀ g ∈ w.grants, r.TargetsGrant g → g.revokedAt ≠ none ∨ g.grantId ∈ grantIds)
    (htimely : r.Narrow → ∀ l ∈ w.leases.drop seen, r.Targets l → Dead (w.grants.map
    (revokeGrant grantIds r.now)) l) : Sound { w with
      leases := w.leases.map (revokeLease ids r.now)
      grants := w.grants.map (revokeGrant grantIds r.now)
      revocations := w.revocations ++ [r] } := by
  have hlater := later_revokeLease ids r.now
  have hlaterGrant := later_revokeGrant grantIds r.now
  have hmap : ∀ {P : LeaseRow → Prop}, (∀ x ∈ w.leases, P (revokeLease ids r.now x)) →
      ∀ x ∈ w.leases.map (revokeLease ids r.now), P x := by
    intro P hall x hx
    obtain ⟨y, hy, rfl⟩ := List.mem_map.1 hx
    exact hall y hy
  have hcount : ∀ x, (revokeLease ids r.now x).useCount = x.useCount := by
    intro x
    unfold revokeLease
    split_ifs <;> rfl
  have hreached : ∀ g ∈ w.grants, r.TargetsGrant g →
      (revokeGrant grantIds r.now g).revokedAt ≠ none := by
    intro g hg htargets
    rcases hgrants g hg htargets with hrevoked | hid
    · exact (hlaterGrant g).revokedAt hrevoked
    · exact revokedAt_revokeGrant hid
  constructor
  · rw [List.map_map]
    have : GrantRow.grantId ∘ revokeGrant grantIds r.now = GrantRow.grantId :=
      funext fun g ↦ (hlaterGrant g).grantId
    rw [this]
    exact h.grantIds
  · rw [List.map_map]
    have : LeaseRow.leaseId ∘ revokeLease ids r.now = LeaseRow.leaseId :=
      funext fun l ↦ (hlater l).leaseId
    rw [this]
    exact h.leaseIds
  · refine hmap fun x hx ↦ ?_
    obtain ⟨g, hg, hcovers⟩ := h.covered x hx
    exact ⟨_, List.mem_map_of_mem hg, hcovers.later (hlaterGrant g) (hlater x)⟩
  · refine hmap fun x hx ↦ ?_
    rw [(hlater x).leaseId, hcount]
    exact h.counted x hx
  · refine hmap fun x hx hsingle ↦ ?_
    rw [hcount]
    exact h.single x hx ((hlater x).singleUse ▸ hsingle)
  · intro a ha
    obtain ⟨x, hx, hid, hnow⟩ := h.answered a ha
    refine ⟨_, List.mem_map_of_mem hx, (hlater x).leaseId.trans hid, ?_⟩
    rw [(hlater x).expiresAt]
    exact hnow
  · intro a ha
    rw [length_append]
    exact (h.began a ha).trans (Nat.le_add_right _ _)
  · intro a ha
    refine hmap fun x hx hid ↦ ?_
    intro k r' hk hr' htargets
    rw [List.getElem?_append_left (hk.trans_le (h.began a ha))] at hr'
    rw [(hlater x).leaseId] at hid ⊢
    exact h.late a ha x hx hid k r' hk hr' ((r'.targets_later (hlater x)).1 htargets)
  · intro r' hr' g' hg' htargets
    obtain ⟨g, hg, rfl⟩ := List.mem_map.1 hg'
    rw [r'.targetsGrant_later (hlaterGrant g)] at htargets
    rcases mem_append.1 hr' with hr' | hr'
    · exact (hlaterGrant g).revokedAt (h.revoked r' hr' g hg htargets)
    · obtain rfl := mem_singleton.1 hr'
      exact hreached g hg htargets
  · intro k r' hr'
    refine hmap fun x hx htargets hle ↦ ?_
    rw [r'.targets_later (hlater x)] at htargets
    rw [(hlater x).leaseId] at hle
    by_cases hk : k < w.revocations.length
    · rw [List.getElem?_append_left hk] at hr'
      exact (h.reached k r' hr' x hx htargets hle).later hlaterGrant (hlater x)
    · -- the revocation that commits
      rw [List.getElem?_append_right (Nat.not_lt.1 hk)] at hr'
      obtain rfl : r' = r := by
        have := mem_of_getElem? hr'
        exact mem_singleton.1 this
      rcases mem_append.1 ((take_append_drop seen w.leases).symm ▸ hx) with hx | hx
      · rcases hfound.leases x hx htargets with hrevoked | hid
        · exact .inl ((hlater x).revokedAt hrevoked)
        · exact .inl (revokedAt_revokeLease hid)
      · by_cases hnarrow : r'.Narrow
        · simpa using (htimely hnarrow x hx htargets).later (f := id) GrantRow.Later.refl (hlater x)
        · obtain ⟨g, hg, hcovers⟩ := h.covered x (mem_of_mem_drop hx)
          have htarget := r'.targetsGrant_of_covers hnarrow hcovers htargets
          refine .inr ⟨_, List.mem_map_of_mem hg, ?_, hreached g hg htarget⟩
          rw [(hlaterGrant g).grantId, (hlater x).grantId, hcovers.grantId]
  · refine hmap fun x hx ↦ ?_
    rw [(hlater x).leaseId, length_append]
    exact (h.issued x hx).trans (Nat.le_add_right _ _)

theorem Inv.commitRevoke (h : Inv w)
    (hi : w.transactions i = some (.revoke r (.grants seen ids grantIds))) (htimely : r.Narrow → ∀
    l ∈ w.leases.drop seen, r.Targets l → Dead (w.grants.map (revokeGrant grantIds r.now))
    l) : Inv { w.close i with
      leases := w.leases.map (revokeLease ids r.now)
      grants := w.grants.map (revokeGrant grantIds r.now)
      revocations := w.revocations ++ [r] } := by
  obtain ⟨hfound, hlocks, hgrants⟩ := h.knows i _ hi
  have hsound := h.sound.revoke hfound hgrants htimely
  refine h.next (hsound.same rfl rfl rfl rfl rfl) (fun _ ↦ rfl) (fun j hj ↦ ?_)
    fun _ ht ↦ (nomatch ht)
  constructor
  · exact ⟨_, later_revokeGrant _ _, rfl⟩
  · exact ⟨_, [], later_revokeLease _ _, (append_nil _).symm⟩
  · intro x hx hlock
    have hne : x.leaseId ∉ ids := by
      intro hid
      rw [hlocks _ hid] at hlock
      exact hj (some.inj hlock).symm
    exact List.mem_map.2 ⟨x, hx, if_neg hne⟩
  · exact fun _ hid ↦ locks_close hj hid
  · exact prefix_append _ _
  · exact fun _ _ ↦ rfl

/-! ## Runs -/

theorem Inv.step {label : Label} (h : Inv w) (htimely : Timely w label)
    (hstep : w.step label = some w') : Inv w' := by
  cases label with
  | beginIssue | beginResolve =>
    rw [World.step] at hstep
    split at hstep <;> cases hstep
    refine h.set fun t ht ↦ ?_
    obtain rfl := some.inj ht
    exact Nat.le_refl _
  | readGrants i =>
    rw [World.step] at hstep
    split at hstep
    · rename_i q began hi
      obtain ⟨g, hg, rfl⟩ := map_eq_some_iff.1 hstep
      obtain ⟨hmem, hw, hr, ha⟩ := matchingGrant_eq hg
      refine h.set fun t ht ↦ ?_
      obtain rfl := some.inj ht
      refine ⟨h.knows i _ hi, fun l hl ↦ ⟨g, hmem, ?_⟩⟩
      obtain ⟨-, hlw, hlg, hlr, hla⟩ := newLease_eq hl
      exact ⟨hlg.symm, hw.trans hlw.symm, hr.trans hlr.symm, ha.trans hla.symm⟩
    · cases hstep
  | insertLease i =>
    rw [World.step] at hstep
    split at hstep
    · rename_i q began g hi
      obtain ⟨l, hl, rfl⟩ := map_eq_some_iff.1 hstep
      obtain ⟨hb, hcovers⟩ := h.knows i _ hi
      refine h.set fun t ht ↦ ?_
      obtain rfl := some.inj ht
      exact ⟨hb, (newLease_eq hl).1, hcovers l hl⟩
    · cases hstep
  | commitIssue i =>
    rw [World.step] at hstep
    split at hstep
    · rename_i q began l hi
      split_ifs at hstep with hfresh
      obtain rfl := some.inj hstep
      rw [Timely, hi] at htimely
      exact h.commitIssue hi hfresh htimely
    · cases hstep
  | lockLease i =>
    rw [World.step] at hstep
    split at hstep
    · rename_i q began hi
      split_ifs at hstep
      split at hstep
      · cases hstep
      · rename_i l hcheck
        split_ifs at hstep with hfree
        obtain rfl := some.inj hstep
        exact h.lockLease hi hcheck hfree
    · cases hstep
  | readGrant i approvals =>
    rw [World.step] at hstep
    split at hstep
    · rename_i q began l hi
      split at hstep
      · cases hstep
      · rename_i g hcheck
        split at hstep
        · cases hstep
        · obtain rfl := some.inj hstep
          exact h.readGrant hi hcheck
    · cases hstep
  | readSecret i value =>
    rw [World.step] at hstep
    split at hstep
    · rename_i q began l hi
      obtain rfl := some.inj hstep
      have hknows := h.knows i _ hi
      refine h.set fun t ht ↦ ?_
      obtain rfl := some.inj ht
      exact hknows
    · cases hstep
  | commitResolve i =>
    rw [World.step] at hstep
    split at hstep
    · rename_i q began l value hi
      obtain rfl := some.inj hstep
      exact h.commitResolve hi
    · cases hstep
  | beginRevoke =>
    rw [World.step] at hstep
    split at hstep <;> cases hstep
    refine h.set fun t ht ↦ ?_
    obtain rfl := some.inj ht
    trivial
  | scanLeases =>
    rw [World.step] at hstep
    split at hstep
    · obtain rfl := some.inj hstep
      exact h.scanLeases
    · cases hstep
  | updateLeases i =>
    rw [World.step] at hstep
    split at hstep
    · rename_i r seen candidates hi
      split_ifs at hstep with hfree
      obtain rfl := some.inj hstep
      exact h.updateLeases hi hfree rfl
    · cases hstep
  | updateGrants i =>
    rw [World.step] at hstep
    split at hstep
    · rename_i r seen ids hi
      obtain rfl := some.inj hstep
      exact h.updateGrants hi
    · cases hstep
  | commitRevoke i =>
    rw [World.step] at hstep
    split at hstep
    · rename_i r seen ids grantIds hi
      obtain rfl := some.inj hstep
      rw [Timely, hi] at htimely
      exact h.commitRevoke hi htimely
    · cases hstep
  | stop i =>
    obtain rfl := some.inj hstep
    exact h.close i

theorem Inv.start (h : (grants.map GrantRow.grantId).Nodup) : Inv (start grants) where
  sound :=
    { grantIds := h
      leaseIds := nodup_nil
      covered := forall_mem_nil _
      counted := forall_mem_nil _
      single := forall_mem_nil _
      answered := forall_mem_nil _
      began := forall_mem_nil _
      late := forall_mem_nil _
      revoked := forall_mem_nil _
      reached := fun _ _ _ ↦ forall_mem_nil _
      issued := forall_mem_nil _ }
  knows := fun _ _ ht ↦ (nomatch ht)

theorem Run.inv (hrun : Run Timely w ls w') (h : Inv w) : Inv w' := by
  induction hrun with
  | nil => exact h
  | cons hstep hC _ ih => exact ih (h.step hC hstep)

/-- What is promised of the answers to resolves. -/
structure Safe (w : World) : Prop where
  /-- A lease for one use is answered at most once. -/
  once : ∀ l ∈ w.leases, l.singleUse = true → answersOf w.answers l.leaseId ≤ 1
  /-- What is answered was issued, and has not expired. -/
  issued : ∀ a ∈ w.answers, ∃ l ∈ w.leases, l.leaseId = a.leaseId ∧ a.now < l.expiresAt
  /-- A resolve that began after the commit of a revocation does not answer a lease of its target
  whose issue began before that commit. -/
  revoked : ∀ k r, w.revocations[k]? = some r → ∀ a ∈ w.answers, k < a.began →
    ∀ l ∈ w.leases, l.leaseId = a.leaseId → r.Targets l → ¬w.issued l.leaseId ≤ k

theorem Inv.safe (h : Inv w) : Safe w where
  once := by
    intro l hl hsingle
    rw [h.sound.counted l hl]
    exact h.sound.single l hl hsingle
  issued := h.sound.answered
  revoked := by
    intro k r hr a ha hk l hl hid htargets
    exact Nat.not_le.2 (h.sound.late a ha l hl hid k r hk hr htargets)

/-- The promise is kept by every interleaving in which no lease of the target of a revocation of a
task or of a lease is committed behind its back. -/
theorem broker_safety {grants : List GrantRow} {w : World} {ls : List Label}
    (hgrants : (grants.map GrantRow.grantId).Nodup)
    (hrun : Run Timely (start grants) ls w) : Safe w :=
  (hrun.inv (.start hgrants)).safe

/-! ## Two runs -/

/-- The run of a list of statements that all meet a condition. -/
def World.runLabels (C : World → Label → Prop) [∀ w l, Decidable (C w l)] (w : World) :
    List Label → Option World
  | [] => some w
  | l :: ls => if C w l then (w.step l).bind fun w₁ ↦ w₁.runLabels C ls else none

theorem World.run_of_runLabels {C : World → Label → Prop} [∀ w l, Decidable (C w l)]
    {w w' : World} (h : w.runLabels C ls = some w') : Run C w ls w' :=
  related_of_run h (fun _ ↦ rfl) (fun _ _ _ ↦ rfl) .nil .cons

namespace Sample

def wideGrant : GrantRow :=
  { grantId := "grant-1", workspaceId := "ws", secretRef := "sec-1", agentId := "agent-1",
    taskId := none, action := none, ttlSeconds := 300, singleUse := true,
    exposureAllowed := false, exposureApprovalId := none, expiresAt := 86400000000,
    revokedAt := none }

def firstHandle : String := "sh-0123456789abcdef0123456789abcdef"

def secondHandle : String := "sh-fedcba9876543210fedcba9876543210"

def issueRequest (hex handle : String) : IssueRequest :=
  { workspaceId := "ws", secretRef := "sec-1", scope :=
      { agentId := "agent-1", taskId := some "task-1", action := none, workItemId := none,
        sidecarInstanceId := none },
    ttl := none, singleUse := none, now := 1000, grantId := none, leaseId := ⟨hex⟩,
    handle := handle }

def resolveRequest (handle : String) : ResolveRequest :=
  { workspaceId := "ws", handle := handle, context :=
      { agentId := "agent-1", sidecarInstanceId := none, taskId := some "task-1", action := none,
        workItemId := none }, now := 5000, purpose := "adapter" }

def revokeTask : Revoke := { workspaceId := "ws", kind := .task, target := "task-1", now := 4000 }

def issuing (i : ℕ) (hex handle : String) : List Label :=
  [.beginIssue i (issueRequest hex handle), .readGrants i, .insertLease i]

def resolving (i : ℕ) (handle : String) : List Label :=
  [.beginResolve i (resolveRequest handle), .lockLease i, .readGrant i [], .readSecret i [7, 8, 9],
    .commitResolve i]

def revoking (i : ℕ) : List Label :=
  [.beginRevoke i revokeTask, .scanLeases i, .updateLeases i, .updateGrants i, .commitRevoke i]

/-- Two leases of a task. The second is committed after the task has been revoked. -/
def overtaken : List Label :=
  issuing 0 "5f0c" firstHandle ++ [.commitIssue 0] ++ issuing 1 "9a3e" secondHandle ++ revoking 2 ++
    [.commitIssue 1] ++ resolving 3 secondHandle

/-- The first lease is answered, then the task is revoked. -/
def inOrder : List Label :=
  issuing 0 "5f0c" firstHandle ++ [.commitIssue 0] ++ resolving 1 firstHandle ++ revoking 2

end Sample

open Sample

/-- A lease that is answered before its task is revoked. -/
theorem broker_safety_in_order :
    ∃ w, Run Timely (start [wideGrant]) inOrder w ∧ w.answers.length = 1 ∧
      w.revocations = [revokeTask] ∧ Safe w := by
  have hrun : (((start [wideGrant]).runLabels Timely inOrder).any fun w ↦
      w.answers.length = 1 ∧ w.revocations = [revokeTask]) = true := by decide +kernel
  obtain ⟨w, hw, hfacts⟩ := (Option.any_eq_true _ _).1 hrun
  obtain ⟨hanswers, hrevocations⟩ := of_decide_eq_true hfacts
  have h := World.run_of_runLabels hw
  exact ⟨w, h, hanswers, hrevocations, broker_safety (by decide) h⟩

/-- A lease of a task whose issue began before the task was revoked is answered to a resolve that
began after the revocation had committed. -/
theorem not_safe_overtaken :
    ∃ w, Run (fun _ _ ↦ True) (start [wideGrant]) overtaken w ∧ ¬Safe w := by
  have hrun : (((start [wideGrant]).runLabels (fun _ _ ↦ True)
      overtaken).any fun w ↦ w.revocations[0]? = some revokeTask ∧
        (∃ a ∈ w.answers, 0 < a.began ∧ ∃ l ∈ w.leases, l.leaseId = a.leaseId ∧
          revokeTask.Targets l ∧ w.issued l.leaseId ≤ 0)) = true := by decide +kernel
  obtain ⟨w, hw, hfacts⟩ := (Option.any_eq_true _ _).1 hrun
  obtain ⟨hrevocation, a, ha, hbegan, l, hl, hid, htargets, hissued⟩ := of_decide_eq_true hfacts
  exact ⟨w, World.run_of_runLabels hw, fun h ↦
    h.revoked 0 _ hrevocation a ha hbegan l hl hid htargets hissued⟩

end AgentColab.Secrets
