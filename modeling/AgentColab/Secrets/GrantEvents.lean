import AgentColab.Secrets.Transactions
import Mathlib.Data.List.Nodup

/-!
# Grants and their Events

`create_grant` inserts a row under a new identity, and then appends the Event under the key of the
caller. The store refuses the Event of a second request with the key; `_append` swallows the
conflict, and the second row stays without an Event. `revoke` appends nothing when it has no store
or no actor.
-/

namespace AgentColab.Secrets

open List Option

/-- An Event of a grant, with what the store identifies its request by in its idempotency scope. -/
structure GrantEvent where
  workspaceId : String
  actor : String
  idempotencyKey : String
  grantId : String

def GrantEvent.identity (e : GrantEvent) : String × String × String :=
  (e.workspaceId, e.actor, e.idempotencyKey)

/-- `_append`, with a store and an actor: a replay and a conflict both append nothing. -/
def appendEvent (events : List GrantEvent) (e : GrantEvent) : List GrantEvent :=
  if e.identity ∈ events.map GrantEvent.identity then events else events ++ [e]

/-- The arguments of `create_grant` from a `CreateSecretGrant`, what its two queries find, and the
digits that it draws. -/
structure CreateGrant where
  workspaceId : String
  secretRef : String
  agentId : String
  taskId : Option String
  action : Option String
  ttlSeconds : ℕ
  singleUse : Bool
  validFor : Option Time
  actor : String
  now : Time
  idempotencyKey : String
  secretFound : Bool
  agentFound : Bool
  hex : String

/-- The row that `create_grant` inserts. -/
def CreateGrant.row (q : CreateGrant) : GrantRow :=
  ⟨"grant-" ++ q.hex, q.workspaceId, q.secretRef, q.agentId, q.taskId, q.action, q.ttlSeconds,
    q.singleUse, false, none, q.now + q.validFor.getD (24 * 3600 * 1000000), none⟩

def CreateGrant.event (q : CreateGrant) : GrantEvent :=
  ⟨q.workspaceId, q.actor, q.idempotencyKey, q.row.grantId⟩

/-- The tables of the broker and the Events of its grants, each type with its own idempotency scope.
-/
structure Book where
  tables : Tables
  created : List GrantEvent
  accessed : List GrantEvent
  revoked : List GrantEvent

namespace Book

/-- `create_grant`; `none` when it raises. The digits are 20 of a fresh `uuid4`. -/
def createGrant (b : Book) (q : CreateGrant) : Option Book :=
  if q.ttlSeconds = 0 ∨ 3600 < q.ttlSeconds ∨ q.secretFound = false ∨ q.agentFound = false ∨
      q.hex.length ≠ 20 ∨ q.row.grantId ∈ b.tables.grants.map GrantRow.grantId then none
  else some { b with
    tables := { b.tables with grants := b.tables.grants ++ [q.row] }
    created := appendEvent b.created q.event }

/-- `resolve` -/
def resolve (b : Book) (q : ResolveRequest) (actor : Option String) : Option Book :=
  match checks b.tables q.workspaceId q.handle q.context q.now q.purpose with
  | .error _ => none
  | .ok lease => some { b with
      tables := b.tables.countUse lease.leaseId q.now
      accessed := match actor with
        | none => b.accessed
        | some actor => appendEvent b.accessed ⟨q.workspaceId, actor,
            lease.leaseId.value ++ ":" ++ toString (lease.useCount + 1), lease.grantId⟩ }

/-- The grants that a revocation updates. -/
def found (b : Book) (r : Revoke) : List GrantRow :=
  b.tables.grants.filter fun g ↦ g.revokedAt = none ∧ r.TargetsGrant g

def revokedEvent (r : Revoke) (reason actor : String) (g : GrantRow) : GrantEvent :=
  ⟨r.workspaceId, actor, g.grantId ++ ":" ++ reason, g.grantId⟩

/-- `revoke`; there is no actor when it is called without one or without a store. -/
def revoke (b : Book) (r : Revoke) (reason : String) (actor : Option String) : Book :=
  let leases := b.tables.leases.map fun l ↦
    if r.Targets l then { l with revokedAt := l.revokedAt.or (some r.now) } else l
  let grants := b.tables.grants.map (World.revokeGrant ((b.found r).map GrantRow.grantId) r.now)
  { b with
    tables := { b.tables with leases, grants }
    revoked := match actor with
      | none => b.revoked
      | some actor => ((b.found r).map (revokedEvent r reason actor)).foldl appendEvent b.revoked }

inductive Label where
  | create (q : CreateGrant)
  | issue (l : LeaseRow)
  | resolve (q : ResolveRequest) (actor : Option String)
  | revoke (r : Revoke) (reason : String) (actor : Option String)

/-- A command that commits; `issue` is `issue_lease`. -/
def step (b : Book) : Label → Option Book
  | .create q => b.createGrant q
  | .issue l => some { b with tables := { b.tables with leases := b.tables.leases ++ [l] } }
  | .resolve q actor => b.resolve q actor
  | .revoke r reason actor => some (b.revoke r reason actor)

/-- No key is used again for a creation, and every revocation that finds a grant has an actor. -/
def Careful (b : Book) : Label → Prop
  | .create q => q.event.identity ∉ b.created.map GrantEvent.identity
  | .revoke r _ actor => b.found r = [] ∨ actor ≠ none
  | _ => True

inductive Run (C : Book → Label → Prop) : Book → List Label → Book → Prop
  | nil (b : Book) : Run C b [] b
  | cons {b b₁ b' : Book} {l : Label} {ls : List Label} (hstep : b.step l = some b₁) (hC : C b l)
      (rest : Run C b₁ ls b') : Run C b (l :: ls) b'

def start (approvals : List ApprovalRow) : Book := ⟨⟨[], [], approvals⟩, [], [], []⟩

def count (events : List GrantEvent) (grantId : String) : ℕ :=
  (events.map GrantEvent.grantId).count grantId

/-- Every row has its Event, and every revoked row the other one. -/
def Matched (b : Book) : Prop :=
  ∀ g ∈ b.tables.grants, count b.created g.grantId = 1 ∧
    (g.revokedAt ≠ none → count b.revoked g.grantId = 1)

structure Inv (b : Book) : Prop where
  ids : (b.tables.grants.map GrantRow.grantId).Nodup
  length : ∀ g ∈ b.tables.grants, g.grantId.length = 26
  created : b.created.map GrantEvent.grantId = b.tables.grants.map GrantRow.grantId
  revoked : ∀ g ∈ b.tables.grants, count b.revoked g.grantId = if g.revokedAt = none then 0 else 1
  keyed : ∀ e ∈ b.revoked, e.grantId ∈ b.tables.grants.map GrantRow.grantId ∧
    ∃ reason, e.idempotencyKey = e.grantId ++ ":" ++ reason

theorem foldl_appendEvent {events new : List GrantEvent}
    (hnew : ∀ e ∈ new, e.identity ∉ events.map GrantEvent.identity)
    (hnodup : (new.map GrantEvent.identity).Nodup) :
    new.foldl appendEvent events = events ++ new := by
  induction new generalizing events with
  | nil => simp
  | cons e new ih =>
    rw [map_cons, nodup_cons] at hnodup
    rw [foldl_cons, appendEvent, if_neg (hnew e mem_cons_self), ih _ hnodup.2]
    · simp
    · intro e' he' hmem
      rw [map_append, mem_append] at hmem
      rcases hmem with hmem | hmem
      · exact hnew e' (mem_cons_of_mem _ he') hmem
      · rw [map_singleton, mem_singleton] at hmem
        exact hnodup.1 (hmem ▸ List.mem_map_of_mem he')

variable {b b' : Book} {q : CreateGrant} {r : Revoke} {reason actor : String}

theorem Inv.matched (h : Inv b) : b.Matched := fun g hg ↦
  ⟨by rw [count, h.created, count_eq_one_of_mem h.ids (List.mem_map_of_mem hg)],
    fun hne ↦ (h.revoked g hg).trans (if_neg hne)⟩

theorem Inv.revoked_new (h : Inv b) {g : GrantRow} (hg : g ∈ b.found r) :
    (revokedEvent r reason actor g).identity ∉ b.revoked.map GrantEvent.identity := by
  obtain ⟨hmem, hopen⟩ := mem_filter.mp hg
  intro hin
  obtain ⟨e, he, heq⟩ := List.mem_map.mp hin
  obtain ⟨-, -, hkey⟩ : _ ∧ _ ∧ e.idempotencyKey = g.grantId ++ ":" ++ reason := by
    simpa only [GrantEvent.identity, revokedEvent, Prod.mk.injEq] using heq
  obtain ⟨hid, reason', hreason⟩ := h.keyed e he
  obtain ⟨g', hg', hid⟩ := List.mem_map.mp hid
  have hsame : e.grantId = g.grantId := by
    have hlist := congrArg String.toList (hreason.symm.trans hkey)
    simp only [String.toList_append, append_assoc] at hlist
    refine String.toList_inj.mp (List.append_inj_left hlist ?_)
    rw [String.length_toList, String.length_toList, ← hid, h.length g' hg', h.length g hmem]
  have hzero := h.revoked g hmem
  rw [if_pos (of_decide_eq_true hopen).1, count, ← hsame] at hzero
  exact List.count_eq_zero.mp hzero (List.mem_map_of_mem he)

theorem Inv.create (h : Inv b) (hstep : b.createGrant q = some b')
    (hC : q.event.identity ∉ b.created.map GrantEvent.identity) : Inv b' := by
  unfold createGrant at hstep
  split_ifs at hstep with hbad
  obtain rfl := some.inj hstep
  simp only [not_or, not_not] at hbad
  obtain ⟨-, -, -, -, hhex, hfresh⟩ := hbad
  refine ⟨?_, fun g hg ↦ ?_, ?_, fun g hg ↦ ?_, fun e he ↦ ?_⟩
  · exact map_append ▸ h.ids.append (nodup_singleton _) (by simpa using hfresh)
  · rcases mem_append.mp hg with hg | hg
    · exact h.length g hg
    · obtain rfl := mem_singleton.mp hg
      simp only [CreateGrant.row, String.length_append, hhex]
      rfl
  · simp only [appendEvent, if_neg hC, map_append, h.created]
    rfl
  · rcases mem_append.mp hg with hg | hg
    · exact h.revoked g hg
    · obtain rfl := mem_singleton.mp hg
      refine List.count_eq_zero.mpr fun hin ↦ hfresh ?_
      obtain ⟨e, he, heq⟩ := List.mem_map.mp hin
      exact heq ▸ (h.keyed e he).1
  · exact ⟨by simp [(h.keyed e he).1], (h.keyed e he).2⟩

theorem Inv.revoke (h : Inv b) {actor : Option String} (hC : b.found r = [] ∨ actor ≠ none) :
    Inv (b.revoke r reason actor) := by
  have hsub : ∀ g ∈ b.found r, g ∈ b.tables.grants := fun g hg ↦ (mem_filter.mp hg).1
  have hnodup : ((b.found r).map GrantRow.grantId).Nodup := h.ids.sublist (filter_sublist.map _)
  obtain ⟨actor', hevents⟩ : ∃ actor', (b.revoke r reason actor).revoked =
      b.revoked ++ (b.found r).map (revokedEvent r reason actor') := by
    cases actor with
    | none => exact ⟨"", by simp [Book.revoke, hC.resolve_right (by simp)]⟩
    | some actor =>
      refine ⟨actor, foldl_appendEvent (fun e he ↦ ?_) ?_⟩
      · obtain ⟨g, hg, rfl⟩ := List.mem_map.mp he
        exact h.revoked_new hg
      · rw [List.map_map]
        refine (List.nodup_map_iff_inj_on (hnodup.of_map _)).mpr fun g hg g' hg' heq ↦ ?_
        refine inj_on_of_nodup_map hnodup hg hg' ?_
        simpa [GrantEvent.identity, revokedEvent] using heq
  have hid (g) : (World.revokeGrant ((b.found r).map GrantRow.grantId) r.now g).grantId =
      g.grantId := by
    unfold World.revokeGrant
    split <;> rfl
  have hids : (b.revoke r reason actor).tables.grants.map GrantRow.grantId =
      b.tables.grants.map GrantRow.grantId := by
    simp only [Book.revoke, List.map_map]
    exact map_congr_left fun g _ ↦ hid g
  have hnew : ((b.found r).map (revokedEvent r reason actor')).map GrantEvent.grantId =
      (b.found r).map GrantRow.grantId := List.map_map
  refine ⟨hids ▸ h.ids, fun g hg ↦ ?_, h.created.trans hids.symm, fun g hg ↦ ?_, fun e he ↦ ?_⟩
  · obtain ⟨g₀, hg₀, rfl⟩ := List.mem_map.mp hg
    exact hid g₀ ▸ h.length g₀ hg₀
  · obtain ⟨g₀, hg₀, rfl⟩ := List.mem_map.mp hg
    rw [hid, hevents, count, map_append, List.count_append, hnew, ← count, h.revoked g₀ hg₀,
      World.revokeGrant]
    by_cases hmem : g₀.grantId ∈ (b.found r).map GrantRow.grantId
    · obtain ⟨g, hfound, heq⟩ := List.mem_map.mp hmem
      obtain rfl := inj_on_of_nodup_map h.ids (hsub g hfound) hg₀ heq
      have hopen := (of_decide_eq_true (mem_filter.mp hfound).2).1
      simp [hopen, hmem, count_eq_one_of_mem hnodup hmem]
    · rw [if_neg hmem, count_eq_zero_of_not_mem hmem, Nat.add_zero]
  · rw [hids]
    rcases mem_append.mp (hevents ▸ he) with he | he
    · exact h.keyed e he
    · obtain ⟨g, hg, rfl⟩ := List.mem_map.mp he
      exact ⟨List.mem_map_of_mem (hsub g hg), reason, rfl⟩

theorem Inv.step (h : Inv b) {l : Label} (hstep : b.step l = some b') (hC : Careful b l) :
    Inv b' := by
  cases l with
  | create q => exact h.create hstep hC
  | issue l =>
    obtain rfl := some.inj hstep
    exact ⟨h.ids, h.length, h.created, h.revoked, h.keyed⟩
  | resolve q actor =>
    unfold Book.step Book.resolve at hstep
    dsimp only at hstep
    split at hstep
    · cases hstep
    · obtain rfl := some.inj hstep
      exact ⟨h.ids, h.length, h.created, h.revoked, h.keyed⟩
  | revoke r reason actor =>
    obtain rfl := some.inj hstep
    exact h.revoke hC

theorem Inv.run {labels : List Label} (hrun : Run Careful b labels b') (h : Inv b) : Inv b' := by
  induction hrun with
  | nil => exact h
  | cons hstep hC _ ih => exact ih (h.step hstep hC)

/-- **As long as no key is used again and every revocation has an actor, the rows of the grants have
their Events.** -/
theorem grants_matched {approvals : List ApprovalRow} {labels : List Label}
    (hrun : Run Careful (start approvals) labels b) : b.Matched :=
  (Inv.run hrun (by constructor <;> simp [start])).matched

/-- A grant, and a request with its key: what is drawn is another grant. -/
def first : CreateGrant :=
  ⟨"w", "ref", "agent", none, none, 300, true, none, "alice", 0, "key", true, true,
    "00000000000000000000"⟩

def again : CreateGrant := { first with hex := "11111111111111111111" }

theorem createGrant_first : (start []).createGrant first = some
    ⟨⟨[], [first.row], []⟩, [first.event], [], []⟩ :=
  if_neg (by decide +kernel)

theorem grants_matched_revoked : ∃ b, Run Careful (start [])
    [.create first, .revoke ⟨"w", .secret, "ref", 1⟩ "ADMIN_REVOKE" (some "alice")] b ∧ b.Matched :=
  have hrun := .cons createGrant_first (by simp [Careful, start])
    (.cons rfl (.inr (some_ne_none _)) (.nil _))
  ⟨_, hrun, grants_matched hrun⟩

theorem repeated_key_unmatched : ¬∀ (approvals : List ApprovalRow) (labels : List Label) (b : Book),
    Run (fun _ _ ↦ True) (start approvals) labels b → b.Matched := by
  intro h
  have hagain : createGrant ⟨⟨[], [first.row], []⟩, [first.event], [], []⟩ again = some
      ⟨⟨[], [first.row, again.row], []⟩, [first.event], [], []⟩ := if_neg (by decide +kernel)
  have hmatched := h [] [.create first, .create again] _
    (.cons createGrant_first trivial (.cons hagain trivial (.nil _)))
  exact absurd (hmatched again.row (by simp)).1 (by decide +kernel)

end Book

end AgentColab.Secrets
