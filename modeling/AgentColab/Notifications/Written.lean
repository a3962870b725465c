import AgentColab.Notifications.Keys

/-!
# What the engine writes

Every plan leaves a notification with its key, whether it is new or was there. A new one that is
not suppressed leaves a pending row of the outbox that says it: of its own, for its key is new, or
of a digest, if that is still to be sent.
-/

namespace AgentColab.Notifications

open AgentColab List

/-! ## Saying a notification -/

/-- Whoever is handed this row with these items is told of the notification. -/
def Carries (r : Outbox.Row) (items : List Item) (notificationId : String) : Prop :=
  (r.kind = "notification" ∧ r.payload.notificationId = some notificationId) ∨
    ∃ item ∈ items, item.notificationId = notificationId

/-- A pending row says it. -/
def Db.Awaits (db : Db) (n : Note) : Prop :=
  ∃ r ∈ db.tables.rows, r.delivery.status = .pending ∧ Carries r (db.items r.id) n.notificationId

/-- A provider has accepted a row that said it. -/
def Delivered (sent : List Sent) (n : Note) : Prop :=
  ∃ x ∈ sent, Carries x.row x.items n.notificationId

/-- The digest is still to be sent, if it is there. -/
def Db.Open (db : Db) (digestKey : String) : Prop :=
  ∀ r ∈ db.tables.rows, r.dedupeKey = digestKey → r.delivery.status = .pending

/-! ## Plans -/

section Plans

variable {engine : Engine} {reading : Reading} {e : Event} {now : Time}

/-- A notification of a rule and an Event, as it was planned. -/
structure IsPlan (engine : Engine) (e : Event) (p : PlannedNotification) : Prop where
  rule : ∃ rule ∈ engine.matchRules e.type, p.ruleId = rule.ruleId ∧
    p.dedupeKey = dedupeKey engine.sha256 rule.ruleId p.recipient (subjectOf e)
      (windowBucket e.occurredAt rule.dedupeWindowSeconds)
  channels : ∀ c ∈ p.channels, c ∈ perRecipientChannels
  nonempty : p.status ≠ .suppressed → p.channels ≠ []
  digest : p.status = .digest → ∃ t, p.digestKey = some (digestKey p.recipient t)

variable {rule : Rule} {ps : List PlannedNotification} {seen : List String}
    {p : PlannedNotification} {d : Dispatch}

theorem isPlan_plan (hrule : rule ∈ engine.matchRules e.type) (recipient : Uuid) :
    IsPlan engine e (engine.plan reading e now rule recipient) := by
  have hchannels : ∀ c ∈ engine.channels rule, c ∈ perRecipientChannels := by
    intro c hc
    have hmem := of_mem_filter hc
    simp only [Bool.and_eq_true, decide_eq_true_eq] at hmem
    exact hmem.1
  rw [Engine.plan]
  split
  · exact ⟨⟨rule, hrule, rfl, rfl⟩, hchannels, fun h ↦ absurd rfl h, nofun⟩
  rename_i hfree
  have hne : engine.channels rule ≠ [] := by
    intro hnil
    rw [hnil] at hfree
    simp at hfree
  split
  · exact ⟨⟨rule, hrule, rfl, rfl⟩, hchannels, fun _ ↦ hne, fun _ ↦ ⟨_, rfl⟩⟩
  · split
    · exact ⟨⟨rule, hrule, rfl, rfl⟩, hchannels, fun _ ↦ hne, nofun⟩
    · exact ⟨⟨rule, hrule, rfl, rfl⟩, hchannels, fun _ ↦ hne, nofun⟩

theorem plan_dedupeKey (rule : Rule) (recipient : Uuid) :
    (engine.plan reading e now rule recipient).dedupeKey = dedupeKey engine.sha256 rule.ruleId
      recipient (subjectOf e) (windowBucket e.occurredAt rule.dedupeWindowSeconds) := by
  rw [Engine.plan]
  split
  · rfl
  · split
    · rfl
    · split <;> rfl

theorem mem_of_unseen (h : p ∈ unseen ps seen) : p ∈ ps := by
  induction ps generalizing seen with
  | nil => exact h
  | cons q _ ih =>
    rw [unseen] at h
    split at h
    · exact mem_cons_of_mem _ (ih h)
    · rcases mem_cons.1 h with rfl | h
      · exact mem_cons_self
      · exact mem_cons_of_mem _ (ih h)

theorem exists_unseen (h : p ∈ ps) (hseen : p.dedupeKey ∉ seen) :
    ∃ q ∈ unseen ps seen, q.dedupeKey = p.dedupeKey := by
  induction ps generalizing seen with
  | nil => exact absurd h not_mem_nil
  | cons q ps ih =>
    rw [unseen]
    by_cases hsame : q.dedupeKey = p.dedupeKey
    · rw [if_neg (hsame ▸ hseen)]
      exact ⟨q, mem_cons_self, hsame⟩
    · have hp : p ∈ ps := (mem_cons.1 h).resolve_left fun heq ↦ hsame (heq ▸ rfl)
      split
      · exact ih hp hseen
      · obtain ⟨q', hq', hkey⟩ := ih hp fun hmem ↦
          (mem_cons.1 hmem).elim (fun heq ↦ hsame heq.symm) hseen
        exact ⟨q', mem_cons_of_mem _ hq', hkey⟩

theorem isPlan_of_planned (h : p ∈ d.planned engine) : IsPlan engine d.event p := by
  obtain ⟨rule, hrule, hp⟩ := mem_flatMap.1 (mem_of_unseen h)
  obtain ⟨recipient, -, rfl⟩ := List.mem_map.1 hp
  exact isPlan_plan hrule recipient

theorem exists_planned {recipient : Uuid} (hrule : rule ∈ engine.matchRules d.event.type)
    (hrecipient : recipient ∈ d.reading.recipients rule) :
    ∃ p ∈ d.planned engine, p.dedupeKey = dedupeKey engine.sha256 rule.ruleId recipient
      (subjectOf d.event) (windowBucket d.event.occurredAt rule.dedupeWindowSeconds) := by
  have hmem : engine.plan d.reading d.event d.now rule recipient ∈
      (engine.matchRules d.event.type).flatMap fun rule ↦
        (d.reading.recipients rule).map (engine.plan d.reading d.event d.now rule) :=
    mem_flatMap.2 ⟨rule, hrule, List.mem_map_of_mem hrecipient⟩
  obtain ⟨p, hp, hkey⟩ := exists_unseen hmem not_mem_nil
  exact ⟨p, hp, hkey.trans (plan_dedupeKey rule recipient)⟩

end Plans

/-! ## Writing -/

/-- What is written stays, and new rows are pending. -/
structure Grows (db db' : Db) : Prop where
  notes : ∀ n ∈ db.notes, n ∈ db'.notes
  rows : ∀ r ∈ db.tables.rows, r ∈ db'.tables.rows
  items : ∀ r ∈ db.tables.rows, ∀ i ∈ db.items r.id, i ∈ db'.items r.id
  new : ∀ r ∈ db'.tables.rows, r ∈ db.tables.rows ∨ r.delivery.status = .pending

theorem Grows.refl (db : Db) : Grows db db :=
  ⟨fun _ h ↦ h, fun _ h ↦ h, fun _ _ _ h ↦ h, fun _ ↦ .inl⟩

theorem Grows.trans {a b c : Db} (h : Grows a b) (h' : Grows b c) : Grows a c where
  notes n hn := h'.notes n (h.notes n hn)
  rows r hr := h'.rows r (h.rows r hr)
  items r hr i hi := h'.items r (h.rows r hr) i (h.items r hr i hi)
  new r hr := (h'.new r hr).elim (h.new r) .inr

variable {db db' : Db}

theorem Grows.open (h : Grows db db') {key : String} (hopen : db.Open key) :
    db'.Open key := fun r hr hkey ↦ (h.new r hr).elim (fun hr ↦ hopen r hr hkey) id

theorem Carries.mono {r : Outbox.Row} {items items' : List Item} {nid : String}
    (h : Carries r items nid) (hitems : ∀ i ∈ items, i ∈ items') : Carries r items' nid :=
  h.imp_right fun ⟨i, hi, hid⟩ ↦ ⟨i, hitems i hi, hid⟩

theorem Grows.awaits (h : Grows db db') {n : Note} (hn : db.Awaits n) : db'.Awaits n := by
  obtain ⟨r, hr, hpending, hcarries⟩ := hn
  exact ⟨r, h.rows r hr, hpending, hcarries.mono (h.items r hr)⟩

/-- What holds of the notifications and of the outbox. -/
structure Kept (engine : Engine) (dispatched : List Dispatch) (sent : List Sent) (db : Db) :
    Prop where
  source : ∀ n ∈ db.notes, ∃ d ∈ dispatched, n.source = d.event ∧
    ∃ rule ∈ engine.matchRules d.event.type, n.ruleId = rule.ruleId ∧
      n.dedupeKey = dedupeKey engine.sha256 rule.ruleId n.recipient (subjectOf d.event)
        (windowBucket d.event.occurredAt rule.dedupeWindowSeconds)
  fresh : ∀ r ∈ db.tables.rows, ∀ id, IsDirect r.dedupeKey id → id ∈ db.notes.map (·.notificationId)
  carried : ∀ n ∈ db.notes, n.plan ≠ .suppressed → db.Awaits n ∨ Delivered sent n

section Writing

variable {engine : Engine} {dispatched : List Dispatch} {sent : List Sent} {db db' : Db}

theorem Kept.grows (h : Kept engine dispatched sent db) (hgrows : Grows db db')
    (hnotes : db'.notes = db.notes)
    (hfresh : ∀ r ∈ db'.tables.rows, r ∈ db.tables.rows ∨ ∀ id, IsDirect r.dedupeKey id →
      id ∈ db.notes.map (·.notificationId)) : Kept engine dispatched sent db' where
  source n hn := h.source n (hnotes ▸ hn)
  fresh r hr id hid := by
    rw [hnotes]
    exact (hfresh r hr).elim (fun hr ↦ h.fresh r hr id hid) fun hr ↦ hr id hid
  carried n hn hplan := (h.carried n (hnotes ▸ hn) hplan).imp_left hgrows.awaits

variable {new : NewRow} {draws : Draws} {nid workspaceId : String} {n : Note} {e : Event}
    {p : PlannedNotification} {k : ℕ} {d : Dispatch} {records : List NotificationRecord}
    {now : Time}

theorem mem_insertRow {t : Outbox.Tables} {r : Outbox.Row} :
    r ∈ (insertRow t new draws workspaceId).rows ↔
      r ∈ t.rows ∨ r = new.row draws workspaceId (nextId t) := by
  rw [insertRow, mem_append, mem_singleton]

theorem notes_enqueue (draws : Draws) (workspaceId : String) (new : NewRow) (db : Db) :
    (enqueue draws workspaceId new db).notes = db.notes := by
  rw [enqueue]
  split <;> rfl

theorem grows_enqueue (draws : Draws) (workspaceId : String) (new : NewRow) (db : Db) :
    Grows db (enqueue draws workspaceId new db) := by
  rw [enqueue]
  split
  · exact .refl db
  · refine ⟨fun _ h ↦ h, fun r hr ↦ mem_insertRow.2 (.inl hr), fun _ _ _ h ↦ h, fun r hr ↦ ?_⟩
    refine (mem_insertRow.1 hr).imp_right ?_
    rintro rfl
    rfl

theorem Kept.enqueue (h : Kept engine dispatched sent db)
    (hnew : ∀ id, IsDirect new.dedupeKey id → id ∈ db.notes.map (·.notificationId)) :
    Kept engine dispatched sent (enqueue draws workspaceId new db) := by
  refine h.grows (grows_enqueue ..) (notes_enqueue ..) fun r hr ↦ ?_
  rw [Notifications.enqueue] at hr
  split at hr
  · exact .inl hr
  · refine (mem_insertRow.1 hr).imp_right ?_
    rintro rfl
    exact hnew

theorem grows_foldl (draws : Draws) (workspaceId : String) (news : List NewRow) (db : Db) :
    Grows db (news.foldl (fun db new ↦ enqueue draws workspaceId new db) db) := by
  induction news generalizing db with
  | nil => exact .refl db
  | cons _ _ ih => exact (grows_enqueue ..).trans (ih _)

theorem notes_foldl (draws : Draws) (workspaceId : String) (news : List NewRow) (db : Db) :
    (news.foldl (fun db new ↦ enqueue draws workspaceId new db) db).notes = db.notes := by
  induction news generalizing db with
  | nil => rfl
  | cons _ _ ih => exact (ih _).trans (notes_enqueue ..)

theorem Kept.foldl (h : Kept engine dispatched sent db) {news : List NewRow}
    (hnews : ∀ new ∈ news, ∀ id, IsDirect new.dedupeKey id → id ∈ db.notes.map (·.notificationId)) :
    Kept engine dispatched sent
      (news.foldl (fun db new ↦ Notifications.enqueue draws workspaceId new db) db) := by
  induction news generalizing db with
  | nil => exact h
  | cons new _ ih =>
    rw [forall_mem_cons] at hnews
    refine ih (h.enqueue hnews.1) fun new hnew id hid ↦ ?_
    rw [notes_enqueue]
    exact hnews.2 new hnew id hid

theorem notes_enqueueDigest (draws : Draws) (workspaceId : String) (recipient : Uuid)
    (key : String) (item : Item) (t : Time) (db : Db) :
    (enqueueDigest draws workspaceId recipient key item t db).notes = db.notes := by
  rw [enqueueDigest]
  split <;> rfl

theorem grows_enqueueDigest (draws : Draws) (workspaceId : String) (recipient : Uuid)
    (key : String) (item : Item) (t : Time) (db : Db) :
    Grows db (enqueueDigest draws workspaceId recipient key item t db) := by
  rw [enqueueDigest]
  split
  · rename_i r _
    refine ⟨fun _ h ↦ h, fun _ h ↦ h, fun q _ i hi ↦ ?_, fun _ ↦ .inl⟩
    by_cases hsame : q.id = r.id
    · simp only [hsame, Function.update_self] at hi ⊢
      exact mem_append_left _ hi
    · simpa only [Function.update_of_ne hsame] using hi
  · refine ⟨fun _ h ↦ h, fun r hr ↦ mem_insertRow.2 (.inl hr), fun q hq i hi ↦ ?_, fun r hr ↦ ?_⟩
    · simpa only [Function.update_of_ne (lt_nextId hq).ne] using hi
    · refine (mem_insertRow.1 hr).imp_right ?_
      rintro rfl
      rfl

theorem exists_enqueueDigest (draws : Draws) (workspaceId : String) (recipient : Uuid)
    {key : String} (item : Item) (t : Time) (hopen : db.Open key) :
    ∃ r ∈ (enqueueDigest draws workspaceId recipient key item t db).tables.rows,
      r.delivery.status = .pending ∧
        item ∈ (enqueueDigest draws workspaceId recipient key item t db).items r.id := by
  rw [enqueueDigest]
  split
  · rename_i r hr
    refine ⟨r, mem_of_find?_eq_some hr, hopen r (mem_of_find?_eq_some hr) ?_, ?_⟩
    · simpa using List.find?_some hr
    · simp only [Function.update_self]
      exact mem_append_right _ mem_cons_self
  · refine ⟨_, mem_insertRow.2 (.inr rfl), rfl, ?_⟩
    change item ∈ Function.update db.items (nextId db.tables) [item] (nextId db.tables)
    rw [Function.update_self]
    exact mem_cons_self

theorem Grows.insertNote (n : Note) (hnew : n.dedupeKey ∉ db.notes.map (·.dedupeKey)) :
    Grows db (insertNote n db hnew) :=
  ⟨fun _ h ↦ mem_append_left _ h, fun _ h ↦ h, fun _ _ _ h ↦ h, fun _ ↦ .inl⟩

theorem mem_notes_insertNote {m : Note} (hnew : n.dedupeKey ∉ db.notes.map (·.dedupeKey)) :
    m ∈ (insertNote n db hnew).notes ↔ m ∈ db.notes ∨ m = n := by
  rw [Notifications.insertNote, mem_append, mem_singleton]

theorem grows_deliverPlan (draws : Draws) (e : Event) (p : PlannedNotification) (nid : String)
    (db : Db) : Grows db (deliverPlan draws e p nid db) ∧
      (deliverPlan draws e p nid db).notes = db.notes := by
  rw [deliverPlan]
  split
  · exact ⟨.refl db, rfl⟩
  · exact ⟨grows_enqueueDigest .., notes_enqueueDigest ..⟩
  · exact ⟨grows_foldl .., notes_foldl ..⟩

theorem exists_foldl {channel : String} (channels : List String) (hnid : '|' ∉ nid.toList)
    (hnone : ∀ r ∈ db.tables.rows, ¬IsDirect r.dedupeKey nid) (hchannel : '|' ∉ channel.toList) :
    ∃ r ∈ (((channel :: channels).map (directRow e p nid)).foldl
        (fun db new ↦ enqueue draws e.workspaceId new db) db).tables.rows,
      r.delivery.status = .pending ∧ r.kind = "notification" ∧
        r.payload.notificationId = some nid := by
  have hkey : (directRow e p nid channel).dedupeKey ∉ db.tables.rows.map (·.dedupeKey) := by
    intro hmem
    obtain ⟨r, hr, hkey⟩ := List.mem_map.1 hmem
    exact hnone r hr ⟨hnid, channel, hchannel, hkey⟩
  refine ⟨(directRow e p nid channel).row draws e.workspaceId (nextId db.tables),
    (grows_foldl draws e.workspaceId (channels.map (directRow e p nid)) _).rows _ ?_, rfl, rfl, rfl⟩
  change _ ∈ (enqueue draws e.workspaceId (directRow e p nid channel) db).tables.rows
  rw [enqueue, if_neg hkey]
  exact mem_insertRow.2 (.inr rfl)

theorem rows_foldl (draws : Draws) (workspaceId : String) (news : List NewRow) (db : Db) :
    ∀ r ∈ (news.foldl (fun db new ↦ enqueue draws workspaceId new db) db).tables.rows,
      r ∈ db.tables.rows ∨ ∃ new ∈ news, r.dedupeKey = new.dedupeKey := by
  induction news generalizing db with
  | nil => exact fun r hr ↦ .inl hr
  | cons new _ ih =>
    intro r hr
    rcases ih _ r hr with hr | ⟨new', hnew', hkey⟩
    · change r ∈ (enqueue draws workspaceId new db).tables.rows at hr
      rw [enqueue] at hr
      split at hr
      · exact .inl hr
      · refine (mem_insertRow.1 hr).imp_right ?_
        rintro rfl
        exact ⟨new, mem_cons_self, rfl⟩
    · exact .inr ⟨new', mem_cons_of_mem _ hnew', hkey⟩

theorem rows_deliverPlan (hp : IsPlan engine e p) (hnid : '|' ∉ nid.toList) :
    ∀ r ∈ (deliverPlan draws e p nid db).tables.rows,
      r ∈ db.tables.rows ∨ ∀ id, IsDirect r.dedupeKey id → id = nid := by
  intro r hr
  cases hstatus : p.status with
  | suppressed =>
    rw [deliverPlan, hstatus] at hr
    exact .inl hr
  | digest =>
    obtain ⟨t, hkey⟩ := hp.digest hstatus
    rw [deliverPlan, hstatus, hkey] at hr
    simp only [Notifications.enqueueDigest] at hr
    split at hr
    · exact .inl hr
    · refine (mem_insertRow.1 hr).imp_right ?_
      rintro rfl
      exact fun id hid ↦ absurd hid (not_isDirect_digest _ _ _)
  | queued =>
    rw [deliverPlan, hstatus] at hr
    refine (rows_foldl _ _ _ _ r hr).imp_right ?_
    rintro ⟨new, hnew, hkey⟩ id hid
    obtain ⟨channel, -, rfl⟩ := List.mem_map.1 hnew
    exact eq_of_isDirect hnid (hkey ▸ hid)

theorem exists_deliverPlan (hp : IsPlan engine e p) (hnid : '|' ∉ nid.toList)
    (hnone : ∀ r ∈ db.tables.rows, ¬IsDirect r.dedupeKey nid)
    (hopen : ∀ key, p.digestKey = some key → db.Open key) (hplan : p.status ≠ .suppressed) :
    ∃ r ∈ (deliverPlan draws e p nid db).tables.rows, r.delivery.status = .pending ∧
      Carries r ((deliverPlan draws e p nid db).items r.id) nid := by
  cases hstatus : p.status with
  | suppressed => exact absurd hstatus hplan
  | digest =>
    obtain ⟨t, hkey⟩ := hp.digest hstatus
    obtain ⟨r, hr, hpending, hitem⟩ := exists_enqueueDigest draws e.workspaceId p.recipient
      ⟨nid, p.ruleId, p.recipient, e.eventId, e.type, p.subject⟩ p.deliverAt (hopen _ hkey)
    rw [deliverPlan, hstatus, hkey]
    exact ⟨r, hr, hpending, .inr ⟨_, hitem, rfl⟩⟩
  | queued =>
    have hchannels := hp.channels
    have hne := hp.nonempty hplan
    rw [deliverPlan, hstatus]
    cases hlist : p.channels with
    | nil => exact absurd hlist hne
    | cons channel channels =>
      have hbar := bar_not_mem_channel (hchannels channel (hlist ▸ mem_cons_self))
      obtain ⟨r, hr, hpending, hrow⟩ := exists_foldl channels hnid hnone hbar
      exact ⟨r, hr, hpending, .inl hrow⟩

theorem Kept.note (h : Kept engine dispatched sent db)
    (hnew : n.dedupeKey ∉ db.notes.map (·.dedupeKey)) (hsource : ∃ d ∈ dispatched, n.source =
    d.event ∧ ∃ rule ∈ engine.matchRules d.event.type, n.ruleId = rule.ruleId ∧ n.dedupeKey =
    dedupeKey engine.sha256 rule.ruleId n.recipient (subjectOf d.event) (windowBucket
    d.event.occurredAt rule.dedupeWindowSeconds)) (hgrows : Grows (insertNote n db hnew) db')
    (hnotes : db'.notes = (insertNote n db hnew).notes) (hrows : ∀ r ∈ db'.tables.rows, r ∈
    db.tables.rows ∨ ∀ id, IsDirect r.dedupeKey id → id = n.notificationId)
    (hawaits : n.plan ≠ .suppressed → db'.Awaits n) :
    Kept engine dispatched sent db' ∧ Grows db db' ∧ n ∈ db'.notes := by
  have hall := (Grows.insertNote n hnew).trans hgrows
  have hmem : ∀ m, m ∈ db'.notes ↔ m ∈ db.notes ∨ m = n := fun m ↦ by
    rw [hnotes, mem_notes_insertNote]
  refine ⟨⟨fun m hm ↦ ?_, fun r hr id hdirect ↦ ?_, fun m hm hplan ↦ ?_⟩, hall,
    (hmem n).2 (.inr rfl)⟩
  · rcases (hmem m).1 hm with hm | rfl
    · exact h.source m hm
    · exact hsource
  · rcases hrows r hr with hold | hnid
    · obtain ⟨m, hm, hid⟩ := List.mem_map.1 (h.fresh r hold id hdirect)
      exact List.mem_map.2 ⟨m, (hmem m).2 (.inl hm), hid⟩
    · exact List.mem_map.2 ⟨n, (hmem n).2 (.inr rfl), (hnid id hdirect).symm⟩
  · rcases (hmem m).1 hm with hm | rfl
    · exact (h.carried m hm hplan).imp_left hall.awaits
    · exact .inl (hawaits hplan)

theorem Kept.persist (h : Kept engine dispatched sent db) (hd : d ∈ dispatched)
    (hp : IsPlan engine d.event p) (hopen : ∀ key, p.digestKey = some key → db.Open key)
    {record : NotificationRecord} (hpersist : persist draws k d.event p db = .ok (db', record)) :
    Kept engine dispatched sent db' ∧ Grows db db' ∧ p.dedupeKey ∈ db'.notes.map (·.dedupeKey) := by
  rw [Notifications.persist] at hpersist
  split at hpersist
  · rename_i hold
    obtain ⟨rfl, -⟩ := Prod.mk.inj (Except.ok.inj hpersist)
    exact ⟨h, .refl db, hold⟩
  rename_i hnew
  split at hpersist
  · cases hpersist
  rename_i hid
  obtain ⟨rfl, -⟩ := Prod.mk.inj (Except.ok.inj hpersist)
  have hbar := bar_not_mem_notificationIdOf (draws.notification k)
  have hnone : ∀ r ∈ db.tables.rows, ¬IsDirect r.dedupeKey
      (notificationIdOf (draws.notification k)) := fun r hr hdirect ↦ hid (h.fresh r hr _ hdirect)
  obtain ⟨rule, hrule, hruleId, hkey⟩ := hp.rule
  obtain ⟨hkept, hgrows, hmem⟩ := h.note (n := ⟨notificationIdOf (draws.notification k), p.ruleId,
    d.event, p.recipient, p.channels, p.dedupeKey, p.status⟩) hnew
    ⟨d, hd, rfl, rule, hrule, hruleId, hkey⟩ (grows_deliverPlan draws d.event p _ _).1
    (grows_deliverPlan draws d.event p _ _).2 (rows_deliverPlan hp hbar)
    (exists_deliverPlan hp hbar hnone hopen)
  exact ⟨hkept, hgrows, List.mem_map.2 ⟨_, hmem, rfl⟩⟩

theorem Kept.persistAll (h : Kept engine dispatched sent db) (hd : d ∈ dispatched)
    {ps : List PlannedNotification} (hps : ∀ p ∈ ps, IsPlan engine d.event p)
    (hopen : ∀ p ∈ ps, ∀ key, p.digestKey = some key → db.Open key)
    (hpersist : persistAll draws d.event ps k db = .ok (db', records)) :
    Kept engine dispatched sent db' ∧ Grows db db' ∧
      ∀ p ∈ ps, p.dedupeKey ∈ db'.notes.map (·.dedupeKey) := by
  induction ps generalizing db k records with
  | nil =>
    obtain ⟨rfl, -⟩ := Prod.mk.inj (Except.ok.inj hpersist)
    exact ⟨h, .refl db, fun p hp ↦ absurd hp not_mem_nil⟩
  | cons p ps ih =>
    rw [forall_mem_cons] at hps hopen
    rw [Notifications.persistAll] at hpersist
    cases hfirst : Notifications.persist draws k d.event p db with
    | error =>
      rw [hfirst] at hpersist
      cases hpersist
    | ok result =>
      obtain ⟨db₁, record⟩ := result
      obtain ⟨hkept, hgrows, hkey⟩ := h.persist hd hps.1 hopen.1 hfirst
      rw [hfirst] at hpersist
      simp only [bind, Except.bind] at hpersist
      split at hpersist
      · cases hpersist
      · rename_i result hrest
        obtain ⟨db₂, records'⟩ := result
        obtain ⟨rfl, -⟩ := Prod.mk.inj (Except.ok.inj hpersist)
        obtain ⟨hkept', hgrows', hkeys⟩ := ih hkept hps.2
          (fun q hq key hq' ↦ hgrows.open (hopen.2 q hq key hq')) hrest
        refine ⟨hkept', hgrows.trans hgrows', forall_mem_cons.2 ⟨?_, hkeys⟩⟩
        obtain ⟨n, hn, hnkey⟩ := List.mem_map.1 hkey
        exact List.mem_map.2 ⟨n, hgrows'.notes n hn, hnkey⟩

theorem not_isDirect_of_mem (h : new ∈ channelPosts engine d.destinations d.event now ++ followups
    engine d.event d.now records) (id : String) : ¬IsDirect new.dedupeKey id := by
  rcases mem_append.1 h with h | h
  · obtain ⟨rule, -, h⟩ := mem_flatMap.1 h
    obtain ⟨channel, -, h⟩ := mem_flatMap.1 h
    obtain ⟨channelUuid, -, rfl⟩ := List.mem_map.1 h
    exact not_isDirect_post _ _ _ _ _ _
  · obtain ⟨rule, -, h⟩ := mem_flatMap.1 h
    obtain ⟨times, -, h⟩ := mem_flatMap.1 h
    obtain ⟨record, -, h⟩ := mem_flatMap.1 h
    rw [scheduleReminders] at h
    split at h
    · exact absurd h not_mem_nil
    · obtain ⟨time, -, h⟩ := mem_flatMap.1 h
      obtain ⟨channel, -, rfl⟩ := List.mem_map.1 h
      exact not_isDirect_reminder _ _ _ _ _ _ _

theorem Kept.onEvent (h : Kept engine dispatched sent db) (hd : d ∈ dispatched)
    (hopen : ∀ p ∈ d.planned engine, ∀ key, p.digestKey = some key → db.Open key)
    (hevent : onEvent engine d draws now db = .ok db') :
    Kept engine dispatched sent db' ∧ Grows db db' ∧
      ∀ p ∈ d.planned engine, p.dedupeKey ∈ db'.notes.map (·.dedupeKey) := by
  rw [Notifications.onEvent] at hevent
  cases hpersist : Notifications.persistAll draws d.event (d.planned engine) 0 db with
  | error =>
    rw [hpersist] at hevent
    cases hevent
  | ok result =>
    obtain ⟨db₁, records⟩ := result
    obtain ⟨hkept, hgrows, hkeys⟩ :=
      h.persistAll hd (fun _ hp ↦ isPlan_of_planned hp) hopen hpersist
    rw [hpersist] at hevent
    obtain rfl := Except.ok.inj hevent
    refine ⟨hkept.foldl fun new hnew id hid ↦ absurd hid (not_isDirect_of_mem hnew id),
      hgrows.trans (grows_foldl ..), fun p hp ↦ ?_⟩
    rw [notes_foldl]
    exact hkeys p hp

end Writing

end AgentColab.Notifications
