import AgentColab.Approvals.Consumption

/-!
# Consumption is bounded and idempotent

In every interleaving the ledger of an approval holds at most as many rows as the grant allows uses,
no two with one key, all for the subject of the grant, and the grant is `CONSUMED` exactly when the
last use is in the ledger. A retry of a recorded key changes nothing and reports the row.
-/

namespace AgentColab.Approvals

open AgentColab Transaction System List Option
open Function (update_of_ne update_self)
open ApprovalTables (consumptions grants)

namespace Sample

def oneApprover : PolicyCatalog where
  riskFor _ := .medium
  quorum _ := 1
  humanOnlyFrom := .critical
  escalationRole := "security"

def answer : ApprovalInput where
  now := 1000
  principal := some ⟨"approver", "approver", true, true⟩

def labels (call : ApprovalCall) (n : ℕ) : List (Label (approvalSystem oneApprover)) :=
  .call 0 call :: (List.replicate n (.exec 0 answer) ++ [.finish 0, .commit 0])

def onceOnly : RequestApproval where
  workspaceUuid := "ws"
  requestedBy := "requester"
  subject := ⟨.task, "task-1"⟩
  action := "deploy"
  idempotencyKey := "k1"
  maxUses := some 1

def consent : DecideApproval where
  approvalId := 3
  approverAccountId := "approver"
  decision := .approve
  credentialFingerprint := "f"
  reauthVerified := true
  idempotencyKey := "k2"

def use : ConsumeApproval where
  approvalId := 3
  consumptionKey := "use-1"
  consumedBy := "implementer"
  consumedFor := ⟨.task, "task-1"⟩

def usedTwice : List (Label (approvalSystem oneApprover)) :=
  labels (.request onceOnly) 10 ++ labels (.decide consent) 13 ++ labels (.consume use) 10 ++
    labels (.consume use) 4

end Sample

/-! ## The invariant -/

structure Ledger (aid : ℕ) (grant : Option Grant) (rows : List ConsumptionRow) : Prop where
  unused : grant = none → rows = []
  keys : (rows.map (·.consumptionKey)).Nodup
  id : ∀ g, grant = some g → g.approvalId = aid
  subject : ∀ g, grant = some g → ∀ row ∈ rows, row.consumedFor = g.subject
  bounded : ∀ g k, grant = some g → g.maxUses = some k → 0 < k ∧ (rows.length : ℤ) ≤ k

/-- The grant is consumed exactly when the last allowed use is in the ledger. -/
def Exhausted (grant : Option Grant) (rows : List ConsumptionRow) : Prop :=
  ∀ g, grant = some g → (g.status = .consumed ↔ g.maxUses = some (rows.length : ℤ))

/-- The grant and its ledger are the cell of the grant's lock. -/
def ledgerCells : approvalDatabase.Cells ℕ (Option Grant × List ConsumptionRow) where
  key := .grant
  get (db : ApprovalTables) aid := (db.grants aid, db.consumptions aid)
  frame (db : ApprovalTables) x aid h := by
    cases x with
    | insertGrant row | insertConsumption row =>
      have hne : aid ≠ row.approvalId := by simpa [ApprovalWrite.keys] using h
      simp [ApprovalTables.apply, hne]
    | setStatus aid' =>
      have hne : aid ≠ aid' := by simpa [ApprovalWrite.keys] using h
      simp [ApprovalTables.apply, hne]
    | _ => rfl
  congr (db db' : ApprovalTables) x aid h := by
    obtain ⟨hgrant, hrows⟩ := Prod.mk.inj h
    cases x with
    | insertGrant row =>
      by_cases hne : aid = row.approvalId <;> simp [ApprovalTables.apply, hne, hgrant, hrows]
      subst hne
      exact hrows
    | setStatus aid' =>
      by_cases hne : aid = aid'
      · subst hne
        simp [ApprovalTables.apply, hgrant, hrows]
      · simp [ApprovalTables.apply, hne, hgrant, hrows]
    | insertConsumption row =>
      by_cases hne : aid = row.approvalId
      · subst hne
        simp [ApprovalTables.apply, hgrant, hrows]
      · simp [ApprovalTables.apply, hne, hgrant, hrows]
    | _ => exact h

def ledgerRows (aid : ℕ) (log : List ApprovalWrite) : List ConsumptionRow :=
  log.filterMap fun
    | .insertConsumption row => if row.approvalId = aid then some row else none
    | _ => none

theorem consumptions_view (db : ApprovalTables) (log : List ApprovalWrite) (aid : ℕ) :
    consumptions (approvalDatabase.view db log) aid =
      db.consumptions aid ++ ledgerRows aid log := by
  induction log generalizing db with
  | nil => exact (append_nil _).symm
  | cons x _ ih =>
    rw [Database.view_cons, ih]
    cases x with
    | insertConsumption row =>
      by_cases haid : row.approvalId = aid
      · subst haid
        simp [ledgerRows, ApprovalTables.apply]
      · simp [ledgerRows, ApprovalTables.apply, haid, Ne.symm haid]
    | _ => rfl

section Session

variable {catalog : PolicyCatalog}

structure Remembers (m : ApprovalKnown) (c : (approvalSystem catalog).Call)
    (held : ApprovalLock → Prop) (v : ApprovalTables) (log : List ApprovalWrite) : Prop where
  locked : ∀ aid h, m.held aid = some h → held (.grant aid)
  row : ∀ aid h, m.held aid = some h → v.grants aid = some h.grant
  absent : ∀ aid h, m.held aid = some h → ∀ key ∈ h.absent,
    key ∉ (v.consumptions aid).map (·.consumptionKey)
  used : ∀ aid h n, m.held aid = some h → h.used = some n → (v.consumptions aid).length = n
  found : ∀ aid key eventId, (aid, key, eventId) ∈ m.found →
    ∃ row ∈ v.consumptions aid, row.consumptionKey = key ∧ row.eventId = eventId
  missed : ∀ aid key, (aid, key) ∈ m.missed →
    key ∉ (consumptions c.view₀ aid).map (·.consumptionKey)
  clean : m.wrote = false → log = c.log₀
  grows : ∀ aid, ∀ row ∈ consumptions c.view₀ aid, row ∈ v.consumptions aid
  clock : ∀ t, m.now = some t → ∃ stmt ∈ c.trace, stmt = ⟨Op.now, t⟩
  gone : ∀ aid ∈ m.gone, consumptions c.view₀ aid = []

/-- The view of a session. Only the ledger of a call in progress may lack its status. -/
structure InOrder (held : ApprovalLock → Prop) (v : ApprovalTables)
    (s : (approvalSystem catalog).Session) : Prop where
  ledger : ∀ aid, Ledger aid (v.grants aid) (v.consumptions aid)
  exhausted : ∀ aid, (∀ c h, s.call = some c →
    ((approvalProtocol catalog).known c).held aid = some h → h.taken = false) →
      Exhausted (v.grants aid) (v.consumptions aid)
  remembers : ∀ c, s.call = some c → Remembers ((approvalProtocol catalog).known c) c held v s.log

/-- What is said of a finished consumption: a retry of a recorded key has changed nothing and has
reported the row. -/
def ConsumptionLaw (f : (approvalSystem catalog).Finished) : Prop :=
  ∀ c row, f.entry = .consume c → row ∈ consumptions f.view₀ c.approvalId →
    row.consumptionKey = c.consumptionKey → f.log₁ = f.log₀ ∧
      ∃ g, grants f.view₁ c.approvalId = some g ∧
        f.outcome = .ok (.consumed c.approvalId c.consumptionKey
          (consumptions f.view₁ c.approvalId).length g.status row.eventId true)

end Session

def approvalShape (catalog : PolicyCatalog) : Shape (approvalSystem catalog) where
  G (db : ApprovalTables) := ∀ aid, Ledger aid (db.grants aid) (db.consumptions aid) ∧
    Exhausted (db.grants aid) (db.consumptions aid)
  L db held s := InOrder held (approvalDatabase.view db s.log) s
  R f := ConsumptionLaw f

/-! ## One statement -/

section Remembering

variable {catalog : PolicyCatalog} {m : ApprovalKnown} {c c' : (approvalSystem catalog).Call}
  {held held' : ApprovalLock → Prop} {v v' : ApprovalTables} {log log' : List ApprovalWrite}

/-- A call further on: it started where it did, and has done more. -/
structure Further (c c' : (approvalSystem catalog).Call) : Prop where
  view : c'.view₀ = c.view₀
  log : c'.log₀ = c.log₀
  trace : ∀ stmt ∈ c.trace, stmt ∈ c'.trace

theorem Remembers.frame (h : Remembers m c held v log) (hc : Further c c')
    (hheld : ∀ key, held key → held' key) (hgrants : v'.grants = v.grants)
    (hrows : v'.consumptions = v.consumptions) (hclean : m.wrote = false → log' = c'.log₀) :
    Remembers m c' held' v' log' where
  locked aid g hg := hheld _ (h.locked aid g hg)
  row aid g hg := hgrants ▸ h.row aid g hg
  absent aid g hg := hrows ▸ h.absent aid g hg
  used aid g n hg hn := hrows ▸ h.used aid g n hg hn
  found aid key eventId hf := hrows ▸ h.found aid key eventId hf
  missed aid key hk := hc.view ▸ h.missed aid key hk
  clean := hclean
  grows aid := by
    rw [hc.view, hrows]
    exact h.grows aid
  clock t ht := by
    obtain ⟨stmt, hstmt, heq⟩ := h.clock t ht
    exact ⟨stmt, hc.trace stmt hstmt, heq⟩
  gone := hc.view ▸ h.gone

theorem Remembers.wrote (h : Remembers m c held v log) :
    Remembers { m with wrote := true } c held v log :=
  ⟨h.locked, h.row, h.absent, h.used, h.found, h.missed, nofun, h.grows, h.clock, h.gone⟩

theorem Remembers.now (h : Remembers m c held v log) {t : Time}
    (ht : ∃ stmt ∈ c.trace, stmt = ⟨Op.now, t⟩) : Remembers { m with now := some t } c held v log :=
  ⟨h.locked, h.row, h.absent, h.used, h.found, h.missed, h.clean, h.grows,
    fun _ ht' ↦ some.inj ht' ▸ ht, h.gone⟩

theorem Remembers.hold (h : Remembers m c held v log) {g : Grant}
    (hlock : held (.grant g.approvalId)) (hrow : v.grants g.approvalId = some g) :
    Remembers (m.hold g) c held v log := by
  have hcases : ∀ aid h', (m.hold g).held aid = some h' → m.held aid = some h' ∨
      (aid = g.approvalId ∧ h' = { grant := g }) := by
    intro aid h' hh'
    by_cases haid : aid = g.approvalId
    · subst haid
      rw [held_hold_self, some.injEq] at hh'
      cases hm : m.held g.approvalId with
      | none => exact .inr ⟨rfl, by rw [← hh', hm, getD_none]⟩
      | some => exact .inl (by rw [← hh', hm, getD_some])
    · exact .inl ((held_hold_of_ne haid).symm.trans hh')
  refine ⟨?_, ?_, ?_, ?_, h.found, h.missed, h.clean, h.grows, h.clock, h.gone⟩
  · intro aid h' hh'
    rcases hcases aid h' hh' with hh' | ⟨rfl, rfl⟩
    · exact h.locked aid h' hh'
    · exact hlock
  · intro aid h' hh'
    rcases hcases aid h' hh' with hh' | ⟨rfl, rfl⟩
    · exact h.row aid h' hh'
    · exact hrow
  · intro aid h' hh'
    rcases hcases aid h' hh' with hh' | ⟨rfl, rfl⟩
    · exact h.absent aid h' hh'
    · exact nofun
  · intro aid h' n hh' hn
    rcases hcases aid h' hh' with hh' | ⟨rfl, rfl⟩
    · exact h.used aid h' n hh' hn
    · cases hn

variable {aid : ℕ} {key : String}

theorem Remembers.learn (h : Remembers m c held v log) {f : HeldGrant → HeldGrant} (hf : ∀ h₀,
    m.held aid = some h₀ → (f h₀).grant = h₀.grant ∧ (∀ key ∈ (f h₀).absent, key ∉ (v.consumptions
    aid).map (·.consumptionKey)) ∧ ∀ n, (f h₀).used = some n → (v.consumptions aid).length = n) :
    Remembers (m.learn aid f) c held v log := by
  have hcases : ∀ aid' h', (m.learn aid f).held aid' = some h' → m.held aid' = some h' ∨
      (aid' = aid ∧ ∃ h₀, m.held aid = some h₀ ∧ f h₀ = h') := by
    intro aid' h' hh'
    by_cases haid : aid' = aid
    · subst haid
      rw [held_learn_self, map_eq_some_iff] at hh'
      exact .inr ⟨rfl, hh'⟩
    · exact .inl ((held_learn_of_ne haid).symm.trans hh')
  refine ⟨?_, ?_, ?_, ?_, h.found, h.missed, h.clean, h.grows, h.clock, h.gone⟩
  · intro aid' h' hh'
    rcases hcases aid' h' hh' with hh' | ⟨rfl, h₀, hh₀, rfl⟩
    · exact h.locked aid' h' hh'
    · exact h.locked _ h₀ hh₀
  · intro aid' h' hh'
    rcases hcases aid' h' hh' with hh' | ⟨rfl, h₀, hh₀, rfl⟩
    · exact h.row aid' h' hh'
    · rw [(hf h₀ hh₀).1]
      exact h.row _ h₀ hh₀
  · intro aid' h' hh'
    rcases hcases aid' h' hh' with hh' | ⟨rfl, h₀, hh₀, rfl⟩
    · exact h.absent aid' h' hh'
    · exact (hf h₀ hh₀).2.1
  · intro aid' h' n hh' hn
    rcases hcases aid' h' hh' with hh' | ⟨rfl, h₀, hh₀, rfl⟩
    · exact h.used aid' h' n hh' hn
    · exact (hf h₀ hh₀).2.2 n hn

theorem Remembers.loud {m' : ApprovalKnown} (h : Remembers m c held v log) (hc : Further c c')
    (hheld : ∀ key, held key → held' key) (aid : ℕ)
    (hother : ∀ aid', aid' ≠ aid → v'.grants aid' = v.grants aid' ∧
      v'.consumptions aid' = v.consumptions aid')
    (hgrow : ∀ row ∈ v.consumptions aid, row ∈ v'.consumptions aid)
    (hsame : ∀ aid', aid' ≠ aid → m'.held aid' = m.held aid')
    (hself : ∀ g, m'.held aid = some g → held' (.grant aid) ∧ v'.grants aid = some g.grant ∧
      (∀ key ∈ g.absent, key ∉ (v'.consumptions aid).map (·.consumptionKey)) ∧
      ∀ n, g.used = some n → (v'.consumptions aid).length = n)
    (hfound : m'.found = m.found) (hmissed : m'.missed = m.missed) (hnow : m'.now = m.now)
    (hgone : m'.gone = m.gone) (hwrote : m'.wrote = true) : Remembers m' c' held' v' log' := by
  have hcases : ∀ aid' g, m'.held aid' = some g → aid' = aid ∨
      (aid' ≠ aid ∧ m.held aid' = some g) := by
    intro aid' g hg
    by_cases haid : aid' = aid
    · exact .inl haid
    · exact .inr ⟨haid, (hsame aid' haid).symm.trans hg⟩
  have hgrow' : ∀ aid', ∀ row ∈ v.consumptions aid', row ∈ v'.consumptions aid' := by
    intro aid' row hrow
    by_cases haid : aid' = aid
    · subst haid
      exact hgrow row hrow
    · rwa [(hother aid' haid).2]
  refine ⟨?_, ?_, ?_, ?_, ?_, ?_, ?_, ?_, ?_, ?_⟩
  · intro aid' g hg
    rcases hcases aid' g hg with rfl | ⟨-, hg'⟩
    · exact (hself g hg).1
    · exact hheld _ (h.locked aid' g hg')
  · intro aid' g hg
    rcases hcases aid' g hg with rfl | ⟨hne, hg'⟩
    · exact (hself g hg).2.1
    · rw [(hother aid' hne).1]
      exact h.row aid' g hg'
  · intro aid' g hg
    rcases hcases aid' g hg with rfl | ⟨hne, hg'⟩
    · exact (hself g hg).2.2.1
    · rw [(hother aid' hne).2]
      exact h.absent aid' g hg'
  · intro aid' g n hg hn
    rcases hcases aid' g hg with rfl | ⟨hne, hg'⟩
    · exact (hself g hg).2.2.2 n hn
    · rw [(hother aid' hne).2]
      exact h.used aid' g n hg' hn
  · intro aid' key eventId hmem
    obtain ⟨row, hrow, hkey⟩ := h.found aid' key eventId (hfound ▸ hmem)
    exact ⟨row, hgrow' aid' row hrow, hkey⟩
  · rw [hmissed, hc.view]
    exact h.missed
  · intro hw
    rw [hwrote] at hw
    cases hw
  · rw [hc.view]
    exact fun aid' row hrow ↦ hgrow' aid' row (h.grows aid' row hrow)
  · intro t ht
    obtain ⟨stmt, hstmt, heq⟩ := h.clock t (hnow ▸ ht)
    exact ⟨stmt, hc.trace stmt hstmt, heq⟩
  · rw [hgone, hc.view]
    exact h.gone

theorem Remembers.gone_cons (h : Remembers m c held v log) (hnone : v.consumptions aid = []) :
    Remembers { m with gone := aid :: m.gone } c held v log := by
  refine ⟨h.locked, h.row, h.absent, h.used, h.found, h.missed, h.clean, h.grows, h.clock, ?_⟩
  intro aid' hmem
  rcases mem_cons.1 hmem with rfl | hmem
  · refine eq_nil_iff_forall_not_mem.2 fun row hrow ↦ ?_
    have hmem' := h.grows _ row hrow
    rw [hnone] at hmem'
    cases hmem'
  · exact h.gone aid' hmem

theorem Remembers.missed_cons (h : Remembers m c held v log)
    (hkey : key ∉ (v.consumptions aid).map (·.consumptionKey)) :
    Remembers { m with missed := (aid, key) :: m.missed } c held v log := by
  refine ⟨h.locked, h.row, h.absent, h.used, h.found, ?_, h.clean, h.grows, h.clock, h.gone⟩
  intro aid' key' hmem
  rcases mem_cons.1 hmem with heq | hmem
  · obtain ⟨rfl, rfl⟩ := Prod.mk.inj heq
    intro hold
    obtain ⟨row, hrow, hrkey⟩ := List.mem_map.1 hold
    exact hkey (List.mem_map.2 ⟨row, h.grows _ row hrow, hrkey⟩)
  · exact h.missed aid' key' hmem

theorem Remembers.found_cons (h : Remembers m c held v log) {eventId : ℕ}
    (hrow : ∃ row ∈ v.consumptions aid, row.consumptionKey = key ∧ row.eventId = eventId) :
    Remembers { m with found := (aid, key, eventId) :: m.found } c held v log := by
  refine ⟨h.locked, h.row, h.absent, h.used, ?_, h.missed, h.clean, h.grows, h.clock, h.gone⟩
  intro aid' key' eventId' hmem
  rcases mem_cons.1 hmem with heq | hmem
  · obtain ⟨rfl, hrest⟩ := Prod.mk.inj heq
    obtain ⟨rfl, rfl⟩ := Prod.mk.inj hrest
    exact hrow
  · exact h.found aid' key' eventId' hmem

end Remembering

variable {g : Grant} {aid seq : ℕ} {rows : List ConsumptionRow}

theorem Ledger.new (hid : g.approvalId = aid) (hmax : ∀ k, g.maxUses = some k → 0 < k) :
    Ledger aid (some g) [] where
  unused h := nomatch h
  keys := nodup_nil
  id g' hg' := by rwa [← some.inj hg']
  subject g' _ := nofun
  bounded g' k hg' hk := by
    obtain rfl := some.inj hg'
    exact ⟨hmax k hk, (hmax k hk).le⟩

theorem Exhausted.new (hstatus : g.status ≠ .consumed) (hmax : ∀ k, g.maxUses = some k → 0 < k) :
    Exhausted (some g) [] := by
  intro g' hg'
  obtain rfl := some.inj hg'
  exact iff_of_false hstatus fun hk ↦ lt_irrefl _ (hmax _ hk)

theorem Ledger.append {row : ConsumptionRow} (h : Ledger aid (some g) rows)
    (hkey : row.consumptionKey ∉ rows.map (·.consumptionKey))
    (hsubject : row.consumedFor = g.subject)
    (hroom : ∀ k, g.maxUses = some k → (rows.length : ℤ) < k) :
    Ledger aid (some g) (rows ++ [row]) where
  unused h := nomatch h
  keys := by
    rw [map_append, nodup_append']
    refine ⟨h.keys, nodup_singleton _, ?_⟩
    intro key hk hk'
    rw [mem_singleton.1 hk'] at hk
    exact hkey hk
  id := h.id
  subject g' hg' r hr := by
    obtain rfl := some.inj hg'
    rcases mem_append.1 hr with hr | hr
    · exact h.subject g rfl r hr
    · rwa [mem_singleton.1 hr]
  bounded g' k hg' hk := by
    obtain rfl := some.inj hg'
    have hlt := hroom k hk
    refine ⟨(h.bounded g k rfl hk).1, ?_⟩
    rw [length_append]
    push_cast
    exact hlt

theorem Ledger.setStatus (h : Ledger aid (some g) rows) (status : ApprovalStatus) (seq : ℕ) :
    Ledger aid (some { g with status := status, aggregateSeq := seq }) rows where
  unused h := nomatch h
  keys := h.keys
  id g' hg' := by
    obtain rfl := some.inj hg'
    exact h.id g rfl
  subject g' hg' := by
    obtain rfl := some.inj hg'
    exact h.subject g rfl
  bounded g' k hg' hk := by
    obtain rfl := some.inj hg'
    exact h.bounded g k rfl hk

theorem Exhausted.afterConsumption (h : Ledger aid (some g) rows) : Exhausted (some { g with
      status := statusAfterConsumption rows.length g.maxUses
      aggregateSeq := seq }) rows := by
  intro g' hg'
  obtain rfl := some.inj hg'
  cases hk : g.maxUses with
  | none => simp [statusAfterConsumption]
  | some k =>
    have hle := (h.bounded g k rfl hk).2
    by_cases hge : (rows.length : ℤ) ≥ k
    · have heq : (rows.length : ℤ) = k := le_antisymm hle hge
      simp [statusAfterConsumption, heq]
    · have hne : k ≠ (rows.length : ℤ) := fun heq ↦ hge heq.le
      simp [statusAfterConsumption, hge, hne]

theorem Exhausted.setStatus {status : ApprovalStatus} (h : Exhausted (some g) rows)
    (hold : g.status ≠ .consumed) (hnew : status ≠ .consumed) :
    Exhausted (some { g with status := status, aggregateSeq := seq }) rows := by
  intro g' hg'
  obtain rfl := some.inj hg'
  exact iff_of_false hnew fun hk ↦ hold ((h g rfl).2 hk)

section Exec

variable {catalog : PolicyCatalog} {s : (approvalSystem catalog).Session}
  {c : (approvalSystem catalog).Call} {held held' : ApprovalLock → Prop} {v v' : ApprovalTables}
  {o : Op} {eff : Eff (Res o)} {k : Res o → Body Outcome}

abbrev callAfter (c : (approvalSystem catalog).Call) (r : Res o) (k : Res o → Body Outcome) :
    (approvalSystem catalog).Call :=
  { c with rest := k r, trace := c.trace ++ [⟨o, r⟩] }

theorem further_callAfter (r : Res o) : Further c (callAfter c r k) :=
  ⟨rfl, rfl, fun _ h ↦ mem_append_left _ h⟩

variable {m : ApprovalKnown}

theorem InOrder.advance (hnext : ((approvalProtocol catalog).known c).next o eff.result = m)
    (hledger : ∀ aid, Ledger aid (v'.grants aid) (v'.consumptions aid)) (hexhausted : ∀ aid, (∀ h,
    m.held aid = some h → h.taken = false) → Exhausted (v'.grants aid) (v'.consumptions aid))
    (hremembers : Remembers m (callAfter c eff.result k) held' v' (s.log ++ eff.writes)) :
    InOrder held' v' (Session.advance (Y := approvalSystem catalog) s c eff k) := by
  have hknown : (approvalProtocol catalog).known (callAfter c eff.result k) = m :=
    ((approvalProtocol catalog).known_advance c o eff.result (k eff.result)).trans hnext
  refine ⟨hledger, fun aid h ↦ hexhausted aid ?_, ?_⟩
  · intro g hg
    exact h _ g rfl (hknown ▸ hg)
  · rintro c' hc'
    obtain rfl := some.inj hc'
    exact hknown ▸ hremembers

theorem InOrder.quiet (h : InOrder held v s) (hc : s.call = some c)
    (hnext : ((approvalProtocol catalog).known c).next o eff.result = m)
    (hgrants : v'.grants = v.grants) (hrows : v'.consumptions = v.consumptions) (htaken : ∀ aid g,
    ((approvalProtocol catalog).known c).held aid = some g → ∃ g', m.held aid = some g' ∧ g'.taken =
    g.taken) (hremembers : Remembers m (callAfter c eff.result k) held' v' (s.log ++ eff.writes)) :
    InOrder held' v' (Session.advance (Y := approvalSystem catalog) s c eff k) := by
  refine .advance hnext ?_ ?_ hremembers
  · rw [hgrants, hrows]
    exact h.ledger
  · intro aid hfree
    rw [hgrants, hrows]
    refine h.exhausted aid fun c' g hc' hg ↦ ?_
    obtain rfl := some.inj (hc'.symm.trans hc)
    obtain ⟨g', hg', htaken'⟩ := htaken aid g hg
    rw [← htaken', hfree g' hg']

theorem InOrder.loud (h : InOrder held v s) (hc : s.call = some c)
    (hnext : ((approvalProtocol catalog).known c).next o eff.result = m) (aid : ℕ) (hother : ∀ aid',
    aid' ≠ aid → v'.grants aid' = v.grants aid' ∧ v'.consumptions aid' = v.consumptions aid')
    (hledger : Ledger aid (v'.grants aid) (v'.consumptions aid)) (hexhausted : (∀ g, m.held aid =
    some g → g.taken = false) → Exhausted (v'.grants aid) (v'.consumptions aid))
    (hsame : ∀ aid', aid' ≠ aid → m.held aid' = ((approvalProtocol catalog).known c).held aid')
    (hremembers : Remembers m (callAfter c eff.result k) held' v' (s.log ++ eff.writes)) :
    InOrder held' v' (Session.advance (Y := approvalSystem catalog) s c eff k) := by
  refine .advance hnext ?_ ?_ hremembers
  · intro aid'
    by_cases haid : aid' = aid
    · subst haid
      exact hledger
    · rw [(hother aid' haid).1, (hother aid' haid).2]
      exact h.ledger aid'
  · intro aid' hfree
    by_cases haid : aid' = aid
    · subst haid
      exact hexhausted hfree
    · rw [(hother aid' haid).1, (hother aid' haid).2]
      refine h.exhausted aid' fun c' g hc' hg ↦ hfree g ?_
      obtain rfl := some.inj (hc'.symm.trans hc)
      rw [hsame aid' haid, hg]

theorem taken_learn {f : HeldGrant → HeldGrant} (hf : ∀ g, (f g).taken = g.taken) (aid' : ℕ)
    (g : HeldGrant) (hg : m.held aid' = some g) :
    ∃ g', (m.learn aid f).held aid' = some g' ∧ g'.taken = g.taken := by
  by_cases haid : aid' = aid
  · subst haid
    exact ⟨f g, held_learn_self.trans (congrArg (Option.map f) hg), hf g⟩
  · exact ⟨g, (held_learn_of_ne haid).trans hg, rfl⟩

theorem Remembers.kept (h : InOrder held v s) (hc : s.call = some c) (hgrants : v'.grants = v.grants)
    (hrows : v'.consumptions = v.consumptions) (hwrites : eff.writes = []) :
    Remembers ((approvalProtocol catalog).known c) (callAfter c eff.result k)
      (fun key ↦ key ∈ eff.locks ∨ held key) v' (s.log ++ eff.writes) := by
  have hrem := h.remembers c hc
  refine hrem.frame (further_callAfter _) (fun _ ↦ Or.inr) hgrants hrows fun hw ↦ ?_
  rw [hwrites, append_nil]
  exact hrem.clean hw

theorem Remembers.changed (h : InOrder held v s) (hc : s.call = some c)
    (hgrants : v'.grants = v.grants) (hrows : v'.consumptions = v.consumptions) :
    Remembers { (approvalProtocol catalog).known c with wrote := true } (callAfter c eff.result k)
      (fun key ↦ key ∈ eff.locks ∨ held key) v' (s.log ++ eff.writes) :=
  (h.remembers c hc).wrote.frame (further_callAfter _) (fun _ ↦ Or.inr) hgrants hrows nofun

theorem InOrder.same (h : InOrder held v s) (hc : s.call = some c) (hwrites : eff.writes = [])
    (hnext : ((approvalProtocol catalog).known c).next o eff.result =
      (approvalProtocol catalog).known c) :
    InOrder (fun key ↦ key ∈ eff.locks ∨ held key) (approvalDatabase.view v eff.writes)
      (Session.advance (Y := approvalSystem catalog) s c eff k) := by
  rw [hwrites, Database.view_nil]
  exact h.quiet hc hnext rfl rfl (fun aid g hg ↦ ⟨g, hg, rfl⟩) (.kept h hc rfl rfl hwrites)

theorem InOrder.elsewhere (h : InOrder held v s) (hc : s.call = some c)
    (hgrants : grants (approvalDatabase.view v eff.writes) = v.grants)
    (hrows : consumptions (approvalDatabase.view v eff.writes) = v.consumptions)
    (hnext : ((approvalProtocol catalog).known c).next o eff.result =
      { (approvalProtocol catalog).known c with wrote := true }) :
    InOrder (fun key ↦ key ∈ eff.locks ∨ held key) (approvalDatabase.view v eff.writes)
      (Session.advance (Y := approvalSystem catalog) s c eff k) := by
  exact h.quiet hc hnext hgrants hrows (fun aid g hg ↦ ⟨g, hg, rfl⟩) (.changed h hc hgrants hrows)

end Exec

section Statements

variable {catalog : PolicyCatalog} {s : (approvalSystem catalog).Session}
  {c : (approvalSystem catalog).Call} {held : ApprovalLock → Prop} {v : ApprovalTables}
  {inp : ApprovalInput} {n : ℕ}

/-- The session after a statement in view `v`. -/
abbrev executed (s : (approvalSystem catalog).Session) (c : (approvalSystem catalog).Call)
    (held : ApprovalLock → Prop) (v : ApprovalTables) (inp : ApprovalInput) (n : ℕ) (o : Op)
    (k : Res o → Body Outcome) : Prop :=
  InOrder (fun key ↦ key ∈ (execStatement inp n v o).locks ∨ held key)
    (approvalDatabase.view v (execStatement inp n v o).writes)
    (Session.advance (Y := approvalSystem catalog) s c (execStatement inp n v o) k)

theorem executed_now (h : InOrder held v s) (hc : s.call = some c) {k : Res .now → Body Outcome} :
    executed s c held v inp n .now k := by
  refine h.quiet hc rfl rfl rfl (fun aid g hg ↦ ⟨g, hg, rfl⟩) ?_
  refine (Remembers.kept h hc rfl rfl rfl).now ⟨⟨Op.now, inp.now⟩, ?_, rfl⟩
  exact mem_append_right _ mem_cons_self

variable {aid : ℕ}

theorem executed_loadGrant (h : InOrder held v s) (hc : s.call = some c) {lock : Bool}
    {k : Res (.loadGrant aid lock) → Body Outcome} :
    executed s c held v inp n (.loadGrant aid lock) k := by
  have hresult : (execStatement inp n v (.loadGrant aid lock)).result = v.grants aid := rfl
  cases hg : v.grants aid with
  | none =>
    rw [hg] at hresult
    have hnext : ((approvalProtocol catalog).known c).next (.loadGrant aid lock)
        (execStatement inp n v (.loadGrant aid lock)).result =
          { (approvalProtocol catalog).known c with
            gone := aid :: ((approvalProtocol catalog).known c).gone } := by
      rw [hresult]
      cases lock <;> rfl
    refine h.quiet hc hnext rfl rfl (fun aid g hg' ↦ ⟨g, hg', rfl⟩) ?_
    exact (Remembers.kept h hc rfl rfl rfl).gone_cons ((h.ledger aid).unused hg)
  | some g =>
    rw [hg] at hresult
    obtain rfl := (h.ledger aid).id g hg
    cases lock with
    | false =>
      refine h.same hc rfl ?_
      rw [hresult]
      rfl
    | true =>
      have hnext : ((approvalProtocol catalog).known c).next (.loadGrant g.approvalId true)
          (execStatement inp n v (.loadGrant g.approvalId true)).result =
            ((approvalProtocol catalog).known c).hold g := by
        rw [hresult]
        rfl
      refine h.quiet hc hnext rfl rfl ?_ ?_
      · intro aid g' hg'
        by_cases haid : aid = g.approvalId
        · subst haid
          refine ⟨g', ?_, rfl⟩
          rw [held_hold_self, hg', getD_some]
        · exact ⟨g', (held_hold_of_ne haid).trans hg', rfl⟩
      · exact (Remembers.kept h hc rfl rfl rfl).hold (.inl mem_cons_self) hg

theorem executed_findConsumption (h : InOrder held v s) (hc : s.call = some c) {key : String}
    {k : Res (.findConsumption aid key) → Body Outcome} :
    executed s c held v inp n (.findConsumption aid key) k := by
  have hresult : (execStatement inp n v (.findConsumption aid key)).result =
    ((v.consumptions aid).find? (·.consumptionKey = key)).map (·.eventId) := rfl
  have hkept := Remembers.kept (k := k) h hc rfl rfl
    (show (execStatement inp n v (.findConsumption aid key)).writes = [] from rfl)
  cases hfind : (v.consumptions aid).find? (·.consumptionKey = key) with
  | none =>
    have hkey : key ∉ (v.consumptions aid).map (·.consumptionKey) := by
      intro hmem
      obtain ⟨row, hrow, hrkey⟩ := List.mem_map.1 hmem
      exact List.find?_eq_none.1 hfind row hrow (by simpa using hrkey)
    rw [hfind, map_none] at hresult
    refine h.quiet hc (congrArg _ hresult) rfl rfl (taken_learn fun _ ↦ rfl) ?_
    refine Remembers.missed_cons (hkept.learn (f := fun g ↦ { g with absent := key :: g.absent })
      fun g hg ↦ ⟨rfl, ?_, ?_⟩) hkey
    · intro key' hkey'
      rcases mem_cons.1 hkey' with rfl | hkey'
      · exact hkey
      · exact (h.remembers c hc).absent aid g hg key' hkey'
    · exact fun u hu ↦ (h.remembers c hc).used aid g u hg hu
  | some row =>
    rw [hfind, map_some] at hresult
    refine h.quiet hc (congrArg _ hresult) rfl rfl (fun aid g hg ↦ ⟨g, hg, rfl⟩) ?_
    refine hkept.found_cons ⟨row, mem_of_find?_eq_some hfind, ?_, rfl⟩
    simpa using List.find?_some hfind

theorem executed_countConsumptions (h : InOrder held v s) (hc : s.call = some c)
    {k : Res (.countConsumptions aid) → Body Outcome} :
    executed s c held v inp n (.countConsumptions aid) k := by
  refine h.quiet hc rfl rfl rfl (taken_learn fun _ ↦ rfl) ?_
  refine (Remembers.kept h hc rfl rfl rfl).learn fun g hg ↦ ⟨rfl, ?_, ?_⟩
  · exact (h.remembers c hc).absent aid g hg
  · exact fun u hu ↦ some.inj hu

theorem executed_insertGrant (h : InOrder held v s) (hc : s.call = some c) {row : ℕ → Grant}
    (hrow : ApprovalKnown.NewGrant row) {k : Res (.insertGrant row) → Body Outcome} :
    executed s c held v inp n (.insertGrant row) k := by
  cases hg : v.grants (row n).approvalId with
  | some =>
    have heff : execStatement inp n v (.insertGrant row) = ⟨.error ⟨"IntegrityError",
        "approval_grants_approval_id_key", 500⟩, [], [.grant (row n).approvalId]⟩ := by
      simp [execStatement, hg]
    rw [executed, heff]
    exact h.same hc rfl rfl
  | none =>
    have heff : execStatement inp n v (.insertGrant row) = ⟨.ok (row n).approvalId,
        [.insertGrant (row n)], [.grant (row n).approvalId]⟩ := by
      simp [execStatement, hg]
    rw [executed, heff]
    have hid := hrow.id n
    have hrows : v.consumptions (row n).approvalId = [] := (h.ledger _).unused hg
    have hself : (v.apply (.insertGrant (row n))).grants (row n).approvalId = some (row n) :=
      update_self ..
    have hnext : ((approvalProtocol catalog).known c).next (.insertGrant row)
        (.ok (row n).approvalId) =
          { ((approvalProtocol catalog).known c).hold (row n) with wrote := true } := by
      rw [ApprovalKnown.next, hid]
    -- the id is new, so the call did not hold it
    have hheld : ((approvalProtocol catalog).known c).held (row n).approvalId = none := by
      refine eq_none_iff_forall_ne_some.2 fun g hheld ↦ ?_
      rw [(h.remembers c hc).row _ g hheld] at hg
      cases hg
    change InOrder _ (v.apply (.insertGrant (row n))) _
    refine h.loud hc hnext (row n).approvalId
      (fun aid hne ↦ ⟨update_of_ne hne .., rfl⟩) ?_ (fun _ ↦ ?_)
      (fun aid hne ↦ held_hold_of_ne hne) ?_
    · rw [hself]
      exact hrows ▸ Ledger.new rfl (hrow.maxUses n)
    · rw [hself]
      have hstatus : (row n).status ≠ .consumed := by
        rw [hrow.status n]
        simp
      exact hrows ▸ Exhausted.new hstatus (hrow.maxUses n)
    · refine (h.remembers c hc).loud (further_callAfter _) (fun _ ↦ Or.inr) (row n).approvalId
        (fun aid hne ↦ ⟨update_of_ne hne .., rfl⟩) (fun _ hr ↦ hr)
        (fun aid hne ↦ held_hold_of_ne hne) ?_ rfl rfl rfl rfl rfl
      intro g hg'
      have hg₀ : g = { grant := row n } := by
        refine some.inj (hg'.symm.trans (held_hold_self.trans ?_))
        rw [hheld, getD_none]
      subst hg₀
      exact ⟨.inl mem_cons_self, hself, by simp, by simp⟩

theorem executed_insertConsumption (h : InOrder held v s) (hc : s.call = some c)
    {row : ConsumptionRow} (hmay : ((approvalProtocol catalog).known c).may (.insertConsumption row))
    {k : Res (.insertConsumption row) → Body Outcome} :
    executed s c held v inp n (.insertConsumption row) k := by
  obtain ⟨g, hheld, -, hsubject, habsent, ⟨u, hused, hroom⟩, -⟩ := hmay
  have hrem := h.remembers c hc
  have hkey := hrem.absent _ g hheld _ habsent
  have hlen := hrem.used _ g u hheld hused
  have hgrant := hrem.row _ g hheld
  have heff : execStatement inp n v (.insertConsumption row) =
      ⟨.ok (), [.insertConsumption row], [.grant row.approvalId]⟩ := by
    simp only [execStatement]
    rw [if_neg hkey]
  rw [executed, heff]
  change InOrder _ (v.apply (.insertConsumption row)) _
  have hrows : (v.apply (.insertConsumption row)).consumptions row.approvalId =
      v.consumptions row.approvalId ++ [row] := update_self ..
  have hgrant' : (v.apply (.insertConsumption row)).grants row.approvalId = some g.grant := hgrant
  have hlearned : (((approvalProtocol catalog).known c).next (.insertConsumption row) (.ok ())).held
      row.approvalId = some { g with absent := [], used := g.used.map (· + 1), taken := true } :=
    held_learn_self.trans (congrArg (Option.map _) hheld)
  refine h.loud hc rfl row.approvalId (fun aid hne ↦ ⟨rfl, update_of_ne hne ..⟩) ?_ ?_
    (fun aid hne ↦ held_learn_of_ne hne) ?_
  · rw [hrows, hgrant']
    have hledger := h.ledger row.approvalId
    rw [hgrant] at hledger
    exact hledger.append hkey hsubject fun k hk ↦ hlen ▸ hroom k hk
  · intro hfree
    have htaken := hfree _ hlearned
    cases htaken
  · refine hrem.loud (further_callAfter _) (fun _ ↦ Or.inr) row.approvalId
      (fun aid hne ↦ ⟨rfl, update_of_ne hne ..⟩) ?_ (fun aid hne ↦ held_learn_of_ne hne) ?_
      rfl rfl rfl rfl rfl
    · intro r hr
      rw [hrows]
      exact mem_append_left _ hr
    · intro g' hg'
      obtain rfl := some.inj (hlearned.symm.trans hg')
      refine ⟨.inl mem_cons_self, hgrant', by simp, ?_⟩
      intro u' hu'
      rw [hrows, length_append, hlen]
      rw [hused] at hu'
      exact some.inj hu'

theorem executed_setStatus (h : InOrder held v s) (hc : s.call = some c) {status : ApprovalStatus}
    (hmay : ((approvalProtocol catalog).known c).may (.setStatus aid status seq))
    {k : Res (.setStatus aid status seq) → Body Outcome} :
    executed s c held v inp n (.setStatus aid status seq) k := by
  obtain ⟨g, hheld, hset⟩ := hmay
  have hrem := h.remembers c hc
  have hgrant := hrem.row _ g hheld
  change InOrder _ (v.apply (.setStatus aid status seq)) _
  have hgrant' : (v.apply (.setStatus aid status seq)).grants aid =
      some { g.grant with status := status, aggregateSeq := seq } :=
    (update_self ..).trans (congrArg (Option.map _) hgrant)
  have hlearned : (((approvalProtocol catalog).known c).next (.setStatus aid status seq) ()).held
      aid = some { g with
        grant := { g.grant with status := status, aggregateSeq := seq }
        taken := false } := held_learn_self.trans (congrArg (Option.map _) hheld)
  have hledger := h.ledger aid
  rw [hgrant] at hledger
  refine h.loud hc rfl aid (fun aid' hne ↦ ⟨update_of_ne hne .., rfl⟩) ?_ ?_
    (fun aid' hne ↦ held_learn_of_ne hne) ?_
  · rw [hgrant']
    exact hledger.setStatus status seq
  · intro _
    rw [hgrant']
    cases htaken : g.taken with
    | true =>
      obtain ⟨u, hused, rfl⟩ := hset.taken htaken
      obtain rfl := hrem.used aid g u hheld hused
      exact Exhausted.afterConsumption hledger
    | false =>
      obtain ⟨hold, hnew⟩ := hset.free htaken
      have hexhausted := h.exhausted aid fun c' g' hc' hg' ↦ ?_
      · rw [hgrant] at hexhausted
        exact hexhausted.setStatus hold hnew
      · obtain rfl := some.inj (hc'.symm.trans hc)
        rwa [← some.inj (hheld.symm.trans hg')]
  · refine hrem.loud (further_callAfter _) (fun _ ↦ Or.inr) aid
      (fun aid' hne ↦ ⟨update_of_ne hne .., rfl⟩) (fun _ hr ↦ hr)
      (fun aid' hne ↦ held_learn_of_ne hne) ?_ rfl rfl rfl rfl rfl
    intro g' hg'
    obtain rfl := some.inj (hlearned.symm.trans hg')
    exact ⟨.inl mem_cons_self, hgrant', hrem.absent aid g hheld,
      fun u hu ↦ hrem.used aid g u hheld hu⟩

theorem execAppend_cases (inp : ApprovalInput) (n : ℕ) (v : ApprovalTables) (r : AppendRequest) :
    (∃ e, (execAppend inp n v r).result = .error e ∧ (execAppend inp n v r).writes = []) ∨
      ∃ res, (execAppend inp n v r).result = .ok res ∧ ((execAppend inp n v r).writes = [] ∨
        ∃ e, (execAppend inp n v r).writes = [.insertEvent e]) := by
  rw [execAppend]
  split
  · split_ifs
    · exact .inr ⟨_, rfl, .inl rfl⟩
    · exact .inl ⟨_, rfl, rfl⟩
  · split
    · exact .inl ⟨_, rfl, rfl⟩
    · dsimp only
      split_ifs
      · exact .inl ⟨_, rfl, rfl⟩
      · exact .inr ⟨_, rfl, .inr ⟨_, rfl⟩⟩

theorem executed_append (h : InOrder held v s) (hc : s.call = some c) {r : AppendRequest}
    {k : Res (.append r) → Body Outcome} : executed s c held v inp n (.append r) k := by
  let next : Res (.append r) → ApprovalKnown := ((approvalProtocol catalog).known c).next (.append r)
  obtain ⟨e, hresult, hwrites⟩ | ⟨res, hresult, hwrites⟩ := execAppend_cases inp n v r
  · exact h.same hc hwrites (congrArg next hresult)
  · refine h.elsewhere hc ?_ ?_ (congrArg next hresult)
    · rcases hwrites with hwrites | ⟨e, hwrites⟩ <;> rw [execStatement, hwrites] <;> rfl
    · rcases hwrites with hwrites | ⟨e, hwrites⟩ <;> rw [execStatement, hwrites] <;> rfl

/-- **Every statement that may be issued keeps the session in order.** -/
theorem executed_of_may (h : InOrder held v s) (hc : s.call = some c) {o : Op}
    (hmay : ((approvalProtocol catalog).known c).may o) {k : Res o → Body Outcome} :
    executed s c held v inp n o k := by
  cases o with
  | now => exact executed_now h hc
  | insertGrant => exact executed_insertGrant h hc hmay
  | loadGrant => exact executed_loadGrant h hc
  | findConsumption => exact executed_findConsumption h hc
  | countConsumptions => exact executed_countConsumptions h hc
  | insertConsumption => exact executed_insertConsumption h hc hmay
  | setStatus => exact executed_setStatus h hc hmay
  | insertDecision row =>
    by_cases hmem : row.decidedBy ∈ v.deciders row.approvalId
    · have heff : execStatement inp n v (.insertDecision row) = ⟨.error ⟨"IntegrityError",
          "approval_decisions_approval_id_decided_by_key", 500⟩, [], [.grant row.approvalId]⟩ := by
        simp only [execStatement]
        rw [if_pos hmem]
      rw [executed, heff]
      exact h.same hc rfl rfl
    · have heff : execStatement inp n v (.insertDecision row) =
          ⟨.ok (), [.insertDecision row], [.grant row.approvalId]⟩ := by
        simp only [execStatement]
        rw [if_neg hmem]
      rw [executed, heff]
      exact h.elsewhere hc rfl rfl rfl
  | append => exact executed_append h hc
  | upsertProjection => exact h.elsewhere hc rfl rfl rfl
  | setAliases => exact h.elsewhere hc rfl rfl rfl
  | _ => exact h.same hc rfl rfl

end Statements

/-! ## Runs -/

section Runs

variable {catalog : PolicyCatalog}

variable {s : (approvalSystem catalog).Session} {c : (approvalSystem catalog).Call}
    {held : ApprovalLock → Prop} {v : ApprovalTables}

theorem possible_of_inOrder {inp : ApprovalInput} {n : ℕ} (h : InOrder held v s)
    (hc : s.call = some c) {o : Op} (hmay : ((approvalProtocol catalog).known c).may o) :
    ((approvalProtocol catalog).known c).ok o (execStatement inp n v o).result := by
  have hrem := h.remembers c hc
  cases o with
  | loadGrant aid =>
    intro g hg
    have hg' : v.grants aid = some g := hg
    refine ⟨(h.ledger aid).id g hg', fun h' hh' ↦ ?_⟩
    exact some.inj (hg'.symm.trans (hrem.row aid h' hh'))
  | insertConsumption row =>
    obtain ⟨g, hheld, -, -, habsent, -, -⟩ := hmay
    have hkey := hrem.absent _ g hheld _ habsent
    change (execStatement inp n v (.insertConsumption row)).result = .ok ()
    simp only [execStatement]
    rw [if_neg hkey]
  | _ => trivial

theorem InOrder.of_ledgers (hs : s.call = none) (h : ∀ aid, Ledger aid (v.grants aid)
    (v.consumptions aid) ∧ Exhausted (v.grants aid) (v.consumptions aid)) : InOrder held v s where
  ledger aid := (h aid).1
  exhausted aid _ := (h aid).2
  remembers c hc := by
    rw [hs] at hc
    cases hc

theorem InOrder.ledgers (h : InOrder held v s) (hs : s.call = none) (aid : ℕ) :
    Ledger aid (v.grants aid) (v.consumptions aid) ∧
      Exhausted (v.grants aid) (v.consumptions aid) := by
  refine ⟨h.ledger aid, h.exhausted aid fun c g hc ↦ ?_⟩
  rw [hs] at hc
  cases hc

theorem InOrder.start (h : InOrder held v s) (hs : s.call = none) (e : ApprovalCall) :
    InOrder held v (Session.start (Y := approvalSystem catalog) s e v) where
  ledger aid := (h.ledgers hs aid).1
  exhausted aid _ := (h.ledgers hs aid).2
  remembers c hc := by
    obtain rfl := some.inj hc
    change Remembers ({} : ApprovalKnown) _ held v s.log
    refine ⟨?_, ?_, ?_, ?_, ?_, ?_, fun _ ↦ rfl, fun _ _ hr ↦ hr, ?_, ?_⟩
    · exact fun _ _ hg ↦ nomatch hg
    · exact fun _ _ hg ↦ nomatch hg
    · exact fun _ _ hg ↦ nomatch hg
    · exact fun _ _ _ hg ↦ nomatch hg
    · exact fun _ _ _ hmem ↦ nomatch hmem
    · exact fun _ _ hmem ↦ nomatch hmem
    · exact fun _ ht ↦ nomatch ht
    · exact fun _ hmem ↦ nomatch hmem

theorem Ledger.unique {grant : Option Grant} (h : Ledger aid grant rows) {r r' : ConsumptionRow}
    (hr : r ∈ rows) (hr' : r' ∈ rows) (hkey : r.consumptionKey = r'.consumptionKey) : r = r' :=
  inj_on_of_nodup_map h.keys hr hr' hkey

theorem consumptionLaw_of_ends {i : ℕ} {x : Except ApprovalError Outcome} (h : InOrder held v s)
    (hc : s.call = some c) (hend : ((approvalProtocol catalog).known c).Ends c.entry x) :
    ConsumptionLaw (⟨i, c.entry, x, c.trace, c.log₀, c.view₀, s.log, v⟩ :
      (approvalSystem catalog).Finished) := by
  intro call row hentry hrow hkey
  have hrem := h.remembers c hc
  generalize hm : (approvalProtocol catalog).known c = m at hrem hend
  rcases hend.2 call hentry with ⟨hfound, hheld, hcounted, hclean⟩ | hmissed | hfailed
  · refine ⟨hrem.clean hclean, ?_⟩
    obtain ⟨row', hrow', hkey', rfl⟩ := hrem.found _ _ _ hfound
    obtain rfl := (h.ledger _).unique hrow' (hrem.grows _ row hrow) (hkey'.trans hkey.symm)
    refine ⟨_, hrem.row _ _ hheld, ?_⟩
    rw [hrem.used _ _ _ hheld hcounted]
  · exact absurd (List.mem_map.2 ⟨row, hrow, hkey⟩) (hrem.missed _ _ hmissed)
  · rcases hfailed with hgone | hmissed
    · rw [hrem.gone _ hgone] at hrow
      cases hrow
    · exact absurd (List.mem_map.2 ⟨row, hrow, hkey⟩) (hrem.missed _ _ hmissed)

theorem InOrder.others {st : ApprovalTables} {held' : ApprovalLock → Prop}
    {t : (approvalSystem catalog).Session} (h : InOrder held (approvalDatabase.view st s.log) s)
    (ht : InOrder held' (approvalDatabase.view st t.log) t) (hcall : t.call = none)
    (hheld : ∀ x ∈ s.log, ∀ key ∈ ApprovalWrite.keys x, held key)
    (hnot : ∀ x ∈ t.log, ∀ key ∈ ApprovalWrite.keys x, ¬held key) :
    InOrder held (approvalDatabase.view (approvalDatabase.view st t.log) s.log) s := by
  have hmine : ∀ aid, held (.grant aid) →
      ledgerCells.get (approvalDatabase.view (approvalDatabase.view st t.log) s.log) aid =
        ledgerCells.get (approvalDatabase.view st s.log) aid :=
    fun aid haid ↦ ledgerCells.get_view_view (fun x hx hk ↦ hnot x hx _ hk haid) s.log
  have htheirs : ∀ aid, ¬held (.grant aid) →
      ledgerCells.get (approvalDatabase.view (approvalDatabase.view st t.log) s.log) aid =
        ledgerCells.get (approvalDatabase.view st t.log) aid :=
    fun aid haid ↦ ledgerCells.get_view_of_untouched fun x hx hk ↦ haid (hheld x hx _ hk)
  have hgrow : ∀ aid, ∀ row ∈ consumptions (approvalDatabase.view st s.log) aid, row ∈ consumptions
        (approvalDatabase.view (approvalDatabase.view st t.log) s.log) aid := by
    intro aid row hrow
    rw [consumptions_view] at hrow ⊢
    rw [consumptions_view]
    rcases mem_append.1 hrow with hrow | hrow
    · exact mem_append_left _ (mem_append_left _ hrow)
    · exact mem_append_right _ hrow
  refine ⟨fun aid ↦ ?_, fun aid hfree ↦ ?_, fun c hc ↦ ?_⟩
  · by_cases haid : held (.grant aid)
    · obtain ⟨hgrant, hrows⟩ := Prod.mk.inj (hmine aid haid)
      rw [hgrant, hrows]
      exact h.ledger aid
    · obtain ⟨hgrant, hrows⟩ := Prod.mk.inj (htheirs aid haid)
      rw [hgrant, hrows]
      exact ht.ledger aid
  · by_cases haid : held (.grant aid)
    · obtain ⟨hgrant, hrows⟩ := Prod.mk.inj (hmine aid haid)
      rw [hgrant, hrows]
      exact h.exhausted aid hfree
    · obtain ⟨hgrant, hrows⟩ := Prod.mk.inj (htheirs aid haid)
      rw [hgrant, hrows]
      exact (ht.ledgers hcall aid).2
  · have hrem := h.remembers c hc
    refine ⟨hrem.locked, ?_, ?_, ?_, ?_, hrem.missed, hrem.clean, ?_, hrem.clock, hrem.gone⟩
    · intro aid g hg
      rw [(Prod.mk.inj (hmine aid (hrem.locked aid g hg))).1]
      exact hrem.row aid g hg
    · intro aid g hg
      rw [(Prod.mk.inj (hmine aid (hrem.locked aid g hg))).2]
      exact hrem.absent aid g hg
    · intro aid g u hg hu
      rw [(Prod.mk.inj (hmine aid (hrem.locked aid g hg))).2]
      exact hrem.used aid g u hg hu
    · intro aid key eventId hmem
      obtain ⟨row, hrow, hkey⟩ := hrem.found aid key eventId hmem
      exact ⟨row, hgrow aid row hrow, hkey⟩
    · exact fun aid row hrow ↦ hgrow aid row (hrem.grows aid row hrow)

theorem approval_local (catalog : PolicyCatalog) :
    (approvalProtocol catalog).Local (fun _ _ ↦ True) (approvalShape catalog) where
  ok w i inp s c o k hI _ hs hc _ hmay _ := possible_of_inOrder (hI.session i s hs) hc hmay
  exec w i inp s c o k hI _ hs hc _ hmay _ _ := by
    have hexec : executed s c (w.Held i) (approvalDatabase.view w.store s.log) inp w.nonce o k :=
      executed_of_may (hI.session i s hs) hc hmay
    change InOrder _ (approvalDatabase.view w.store (s.log ++ _)) _
    rw [Database.view_append]
    exact hexec
  opened st hst := InOrder.of_ledgers rfl hst
  call w i e s _ _ hc hL _ := hL.start hc e
  finish w i s c x hI hs hc hfin := by
    have hL := hI.session i s hs
    refine ⟨InOrder.of_ledgers rfl fun aid ↦ ⟨hL.ledger aid, hL.exhausted aid ?_⟩,
      consumptionLaw_of_ends hL hc hfin⟩
    intro c' g hc' hg
    obtain rfl := some.inj (hc'.symm.trans hc)
    exact hfin.1 aid g hg
  commit st held s _ hL hs _ := hL.ledgers hs
  others st held held' s t _ hL ht hcall hheld hnot := hL.others ht hcall hheld hnot

def emptyWorld (catalog : PolicyCatalog) : (approvalSystem catalog).World where
  store := ({} : ApprovalTables)
  aux := ()

theorem approval_run {w : (approvalSystem catalog).World}
    (hw : Run (fun _ _ ↦ True) (emptyWorld catalog) w) :
    (approvalProtocol catalog).Conforming w ∧ (approvalShape catalog).Holds w := by
  have hinit : (approvalShape catalog).Holds (emptyWorld catalog) := by
    refine ⟨fun aid ↦ ⟨⟨fun _ ↦ rfl, nodup_nil, ?_, ?_, ?_⟩, ?_⟩, ?_, ?_⟩
    · exact fun _ hg ↦ nomatch hg
    · exact fun _ hg ↦ nomatch hg
    · exact fun _ _ hg ↦ nomatch hg
    · exact fun _ hg ↦ nomatch hg
    · exact fun _ _ hs ↦ nomatch hs
    · exact fun _ hf ↦ nomatch hf
  obtain ⟨-, hconf, h⟩ := (approval_local catalog).keeps.run (fun _ ↦ rfl) (fun _ ↦ rfl) hinit hw
  exact ⟨hconf, h⟩

/-- What holds of every grant and its ledger. -/
structure Consumable (db : ApprovalTables) (aid : ℕ) (g : Grant) : Prop where
  /-- The uses never exceed `max_uses`. -/
  bounded : ∀ k, g.maxUses = some k → ((db.consumptions aid).length : ℤ) ≤ k
  /-- `CONSUMED` exactly when the uses are `max_uses`. -/
  exhausted : g.status = .consumed ↔ g.maxUses = some ((db.consumptions aid).length : ℤ)
  /-- At most one use for each key. -/
  keys : ((db.consumptions aid).map (·.consumptionKey)).Nodup
  /-- Every use is for the subject of the grant. -/
  subject : ∀ row ∈ db.consumptions aid, row.consumedFor = g.subject

/-- A session is about to insert a row into a ledger: the grant, as it sees and holds it, is usable
at the call's reading of the clock and for the same subject. -/
def Justified (w : (approvalSystem catalog).World) (i : ℕ)
    (s : (approvalSystem catalog).Session) (c : (approvalSystem catalog).Call)
    (row : ConsumptionRow) : Prop :=
  ∃ g t, grants (w.view s) row.approvalId = some g ∧
    w.Held i (.grant row.approvalId) ∧ (∃ stmt ∈ c.trace, stmt = ⟨Op.now, t⟩) ∧
    g.usableAt t = true ∧ row.consumedFor = g.subject

end Runs

end AgentColab.Approvals
