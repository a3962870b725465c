import AgentColab.Notifications.Drained
import AgentColab.Events.TamperEvidence
import AgentColab.Notifications.Written

/-!
# Neither lost nor repeated

A notification is written once for each key. So a window yields one for each rule, recipient and
subject; of two Events of a rule without a window, in one millisecond, the second is lost.
-/

namespace AgentColab.Notifications

open AgentColab List

section

variable {engine : Engine}

/-! ## The condition -/

/-- If a rule without a window is for both Events and they have one subject, they are in different
milliseconds. -/
def Apart (engine : Engine) (d d' : Dispatch) : Prop :=
  ∀ rule ∈ engine.matchRules d.event.type, rule.dedupeWindowSeconds ≤ 0 →
    d'.event.type = d.event.type → subjectOf d'.event = subjectOf d.event →
      windowBucket d'.event.occurredAt rule.dedupeWindowSeconds ≠
        windowBucket d.event.occurredAt rule.dedupeWindowSeconds

/-- An Event that is written is apart from the others, and its digests are still to be sent; and a
drain gives up no row. -/
def Meets (engine : Engine) (w : World) : Label → Prop
  | .commit i _ => ∀ d ∈ w.inFlight[i]?,
    (∀ d' ∈ w.dispatched, d'.event.eventId ≠ d.event.eventId → Apart engine d d') ∧
      ∀ p ∈ d.planned engine, ∀ key, p.digestKey = some key → w.db.Open key
  | .drain inp provider => ∀ r ∈ w.db.tables.select inp, Patient inp provider r
  | _ => True

/-! ## What holds in every state -/

structure World.Sound (engine : Engine) (w : World) : Prop where
  kept : Kept engine w.dispatched w.sent w.db
  written : ∀ d ∈ w.dispatched, ∀ p ∈ d.planned engine, p.dedupeKey ∈ w.db.notes.map (·.dedupeKey)
  apart : ∀ d ∈ w.dispatched, ∀ d' ∈ w.dispatched, d'.event.eventId ≠ d.event.eventId →
    Apart engine d d'

variable {d : Dispatch} {dispatched : List Dispatch} {sent : List Sent} {db : Db} {w : World}
    {type : String}

theorem Apart.symm {d' : Dispatch} (h : Apart engine d d') : Apart engine d' d :=
  fun rule hrule hwindow htype hsubject heq ↦
    h rule (htype ▸ hrule) hwindow htype.symm hsubject.symm heq.symm

theorem Kept.dispatch (h : Kept engine dispatched sent db) (d : Dispatch) :
    Kept engine (dispatched ++ [d]) sent db where
  source n hn := by
    obtain ⟨d', hd', hrest⟩ := h.source n hn
    exact ⟨d', mem_append_left _ hd', hrest⟩
  fresh := h.fresh
  carried := h.carried

theorem World.Sound.commit (h : w.Sound engine) {i : ℕ} {draws : Draws}
    (hmeets : Meets engine w (.commit i draws)) :
    (w.step engine (.commit i draws)).Sound engine := by
  rw [World.step]
  split
  · exact h
  rename_i d hd
  obtain ⟨hapart, hopen⟩ := hmeets d hd
  split
  · exact ⟨h.kept, h.written, h.apart⟩
  rename_i db hevent
  obtain ⟨hkept, hgrows, hkeys⟩ := (h.kept.dispatch d).onEvent
    (mem_append_right _ mem_cons_self) hopen hevent
  refine ⟨hkept, forall_mem_append.2 ⟨fun d' hd' p hp ↦ ?_, forall_mem_singleton.2 hkeys⟩, ?_⟩
  · obtain ⟨n, hn, hkey⟩ := List.mem_map.1 (h.written d' hd' p hp)
    exact List.mem_map.2 ⟨n, hgrows.notes n hn, hkey⟩
  · refine forall_mem_append.2 ⟨fun a ha ↦ forall_mem_append.2 ⟨h.apart a ha,
      forall_mem_singleton.2 fun hne ↦ (hapart a ha hne.symm).symm⟩,
      forall_mem_singleton.2 (forall_mem_append.2 ⟨hapart,
        forall_mem_singleton.2 fun hne ↦ absurd rfl hne⟩)⟩

theorem Kept.drain (h : Kept engine dispatched sent db) {inp : Outbox.Input}
    {provider : Outbox.NotificationProvider}
    (hpatient : ∀ r ∈ db.tables.select inp, Patient inp provider r) :
    Kept engine dispatched (sent ++ db.sentBy (Outbox.drain inp provider db.tables).1)
      { db with tables := (Outbox.drain inp provider db.tables).1.tables } := by
  have hmore : ∀ n, Delivered sent n →
      Delivered (sent ++ db.sentBy (Outbox.drain inp provider db.tables).1) n :=
    fun n ⟨x, hx, hcarries⟩ ↦ ⟨x, mem_append_left _ hx, hcarries⟩
  rcases drain_eq db.tables inp provider with hsame | hloop
  · rw [hsame]
    exact ⟨h.source, h.fresh, fun n hn hplan ↦ (h.carried n hn hplan).imp_right (hmore n)⟩
  have hdrained := drained_loop db.tables inp provider hpatient
  rw [← hloop] at hdrained
  refine ⟨h.source, fun q hq id hid ↦ ?_, fun n hn hplan ↦ ?_⟩
  · obtain ⟨r, hr, hsame, -⟩ := hdrained.back q hq
    rw [SameRow] at hsame
    rw [hsame] at hid
    exact h.fresh r hr id hid
  · rcases h.carried n hn hplan with ⟨r, hr, hpending, hcarries⟩ | hdelivered
    · obtain ⟨q, hq, hsame, hstatus⟩ := hdrained.there r hr
      rcases hstatus hpending with hq' | ⟨x, hx, rfl, haccepted⟩
      · refine .inl ⟨q, hq, hq', ?_⟩
        rw [SameRow] at hsame
        rw [hsame]
        exact hcarries
      · refine .inr ⟨⟨x.row, db.items x.row.id⟩, mem_append_right _ ?_, hcarries⟩
        exact List.mem_map.2 ⟨x, mem_filter.2 ⟨hx, haccepted⟩, rfl⟩
    · exact .inr (hmore n hdelivered)

theorem World.Sound.step (h : w.Sound engine) {l : Label} (hmeets : Meets engine w l) :
    (w.step engine l).Sound engine := by
  cases l with
  | tick | plan | abort => exact ⟨h.kept, h.written, h.apart⟩
  | commit => exact h.commit hmeets
  | drain => exact ⟨h.kept.drain hmeets, h.written, h.apart⟩

theorem Reached.sound (h : Reached engine (Meets engine) w) : w.Sound engine := by
  induction h with
  | start =>
    exact ⟨⟨fun _ h ↦ absurd h not_mem_nil, fun _ h ↦ absurd h not_mem_nil,
      fun _ h ↦ absurd h not_mem_nil⟩, fun _ h ↦ absurd h not_mem_nil,
      fun _ h ↦ absurd h not_mem_nil⟩
  | step l _ hl ih => exact ih.step hl

/-! ## The notifications of an Event -/

/-- Every Event has its own notification for each rule without a window and each recipient. -/
def World.Own (engine : Engine) (w : World) : Prop :=
  ∀ d ∈ w.dispatched, ∀ rule ∈ engine.matchRules d.event.type, rule.dedupeWindowSeconds ≤ 0 →
    ∀ recipient ∈ d.reading.recipients rule, ∃ n ∈ w.db.notes,
      n.ruleId = rule.ruleId ∧ n.recipient = recipient ∧ n.source.eventId = d.event.eventId

/-- A window has one notification for each rule, recipient and subject that was planned in it. -/
def World.Once (engine : Engine) (w : World) : Prop :=
  ∀ d ∈ w.dispatched, ∀ rule ∈ engine.matchRules d.event.type, 0 < rule.dedupeWindowSeconds →
    ∀ recipient ∈ d.reading.recipients rule, ∃! n, n ∈ w.db.notes ∧
      n.ruleId = rule.ruleId ∧ n.recipient = recipient ∧ subjectOf n.source = subjectOf d.event ∧
          windowBucket n.source.occurredAt rule.dedupeWindowSeconds =
            windowBucket d.event.occurredAt rule.dedupeWindowSeconds

/-- A notification that is not suppressed has been delivered, or a pending row says it. -/
structure World.Tells (engine : Engine) (w : World) : Prop where
  told : ∀ n ∈ w.db.notes, n.plan ≠ .suppressed → w.db.Awaits n ∨ Delivered w.sent n
  flushed : ∀ inp provider, Flushes inp provider w.db.tables → ∀ n ∈ w.db.notes,
    n.plan ≠ .suppressed → Delivered (w.step engine (.drain inp provider)).sent n

theorem rule_eq {rule rule' : Rule} {type' : String} (h : rule ∈ engine.matchRules type)
    (h' : rule' ∈ engine.matchRules type') (hid : rule.ruleId = rule'.ruleId) : rule = rule' :=
  inj_on_of_nodup_map engine.ruleSet.nodup (mem_of_mem_filter h) (mem_of_mem_filter h') hid

theorem type_eq {rule : Rule} (h : rule ∈ engine.matchRules type) : rule.eventType = type := by
  have hmem := of_mem_filter h
  simp only [Bool.and_eq_true, decide_eq_true_eq] at hmem
  exact hmem.2

theorem World.Sound.exists_note (h : w.Sound engine) (hinj : Function.Injective engine.sha256)
    (hd : d ∈ w.dispatched) {rule : Rule} (hrule : rule ∈ engine.matchRules d.event.type)
    {recipient : Uuid} (hrecipient : recipient ∈ d.reading.recipients rule) :
    ∃ n ∈ w.db.notes, n.ruleId = rule.ruleId ∧ n.recipient = recipient ∧
      ∃ d' ∈ w.dispatched, n.source = d'.event ∧ d'.event.type = d.event.type ∧
        subjectOf d'.event = subjectOf d.event ∧
          windowBucket d'.event.occurredAt rule.dedupeWindowSeconds =
            windowBucket d.event.occurredAt rule.dedupeWindowSeconds := by
  obtain ⟨p, hp, hkey⟩ := exists_planned hrule hrecipient
  obtain ⟨n, hn, hnkey⟩ := List.mem_map.1 (h.written d hd p hp)
  obtain ⟨d', hd', hsource, rule', hrule', hid, hkey'⟩ := h.kept.source n hn
  obtain ⟨hrules, hrecipients, hsubject, hbucket⟩ :=
    dedupeKey_inj hinj (hkey'.symm.trans (hnkey.trans hkey))
  obtain rfl := rule_eq hrule' hrule hrules
  exact ⟨n, hn, hid, hrecipients, d', hd', hsource, (type_eq hrule').symm.trans (type_eq hrule),
    hsubject, hbucket⟩

theorem World.Sound.own (h : w.Sound engine) (hinj : Function.Injective engine.sha256) :
    w.Own engine := by
  intro d hd rule hrule hwindow recipient hrecipient
  obtain ⟨n, hn, hid, hrecipients, d', hd', hsource, htype, hsubject, hbucket⟩ :=
    h.exists_note hinj hd hrule hrecipient
  refine ⟨n, hn, hid, hrecipients, ?_⟩
  rw [hsource]
  by_contra hne
  exact h.apart d hd d' hd' hne rule hrule hwindow htype hsubject hbucket

theorem World.Sound.once (h : w.Sound engine) (hinj : Function.Injective engine.sha256) :
    w.Once engine := by
  intro d hd rule hrule _ recipient hrecipient
  obtain ⟨n, hn, hid, hrecipients, d', hd', hsource, -, hsubject, hbucket⟩ :=
    h.exists_note hinj hd hrule hrecipient
  refine ⟨n, ⟨hn, hid, hrecipients, hsource ▸ hsubject, hsource ▸ hbucket⟩, ?_⟩
  have hkey : ∀ m ∈ w.db.notes, m.ruleId = rule.ruleId → m.recipient = recipient →
      subjectOf m.source = subjectOf d.event →
      windowBucket m.source.occurredAt rule.dedupeWindowSeconds =
        windowBucket d.event.occurredAt rule.dedupeWindowSeconds →
      m.dedupeKey = dedupeKey engine.sha256 rule.ruleId recipient (subjectOf d.event)
        (windowBucket d.event.occurredAt rule.dedupeWindowSeconds) := by
    intro m hm hmid hmrecipient hmsubject hmbucket
    obtain ⟨d₁, -, hsource₁, rule₁, hrule₁, hid₁, hkey₁⟩ := h.kept.source m hm
    obtain rfl := rule_eq hrule₁ hrule (hid₁.symm.trans hmid)
    rw [hkey₁, ← hsource₁, hmrecipient, hmsubject, hmbucket]
  rintro m ⟨hm, hmid, hmrecipient, hmsubject, hmbucket⟩
  refine inj_on_of_nodup_map w.db.dedupeKeys hm hn ?_
  rw [hkey m hm hmid hmrecipient hmsubject hmbucket,
    hkey n hn hid hrecipients (hsource ▸ hsubject) (hsource ▸ hbucket)]

theorem World.Sound.tells (h : w.Sound engine) : w.Tells engine := by
  refine ⟨h.kept.carried, fun inp provider hflush n hn hplan ↦ ?_⟩
  have hpatient : ∀ r ∈ w.db.tables.select inp, Patient inp provider r := fun r _ hsome ↦ by
    rw [hflush.send r] at hsome
    cases hsome
  rcases (h.kept.drain hpatient).carried n hn hplan with ⟨r, hr, hpending, -⟩ | hdelivered
  · exact absurd hpending (hflush.not_pending r hr)
  · exact hdelivered

theorem persistAll_of_written (draws : Draws) (e : Event) {ps : List PlannedNotification} (k : ℕ)
    (h : ∀ p ∈ ps, p.dedupeKey ∈ db.notes.map (·.dedupeKey)) :
    ∃ records, persistAll draws e ps k db = .ok (db, records) := by
  induction ps generalizing k with
  | nil => exact ⟨_, rfl⟩
  | cons p _ ih =>
    rw [forall_mem_cons] at h
    obtain ⟨records, hrest⟩ := ih (k + 1) h.2
    simp only [persistAll, persist, dif_pos h.1, bind, Except.bind, hrest]
    exact ⟨_, rfl⟩

theorem exists_onEvent_of_written (draws : Draws) (now : Time)
    (h : ∀ p ∈ d.planned engine, p.dedupeKey ∈ db.notes.map (·.dedupeKey)) :
    ∃ db', onEvent engine d draws now db = .ok db' ∧ db'.notes = db.notes := by
  obtain ⟨records, hall⟩ := persistAll_of_written draws d.event 0 h
  refine ⟨_, ?_, notes_foldl draws d.event.workspaceId
    (channelPosts engine d.destinations d.event now ++ followups engine d.event d.now records) db⟩
  rw [onEvent, hall]
  rfl

end

namespace Sample

def verifier : Uuid := ⟨"0e0e0e0e-0000-4000-8000-00000000000e", by decide⟩

def rule : Rule where
  ruleId := "ntf-task-waiting"
  eventType := "TASK_WAITING"
  recipientSelectors := ["verifier"]
  channels := ["mattermost:dm"]

def engine : Engine where
  ruleSet := ⟨[rule], by simp⟩
  enabledChannels := ["mattermost:dm"]
  zoneInfo := fun _ ↦ ⟨id, id⟩
  sha256 := AgentColab.Sample.keep

def waiting (eventId : String) : Event where
  eventId := eventId
  workspaceId := "ws-1"
  type := "TASK_WAITING"
  aggregateType := "task"
  aggregateId := "task-9"
  occurredAt := 1790000000123000

def reading : Reading := ⟨fun _ ↦ [verifier], fun _ ↦ {}⟩

def dispatch (eventId : String) : Dispatch := ⟨waiting eventId, 0, reading, fun _ ↦ []⟩

def draws : Draws := ⟨fun _ ↦ verifier, fun _ ↦ verifier, 0⟩

def planned : World := ({} : World).step engine (.plan (waiting "evt-1") reading fun _ ↦ [])

def written : World := planned.step engine (.commit 0 draws)

def plan (eventId : String) : PlannedNotification :=
  engine.plan reading (waiting eventId) 0 rule verifier

theorem planned_dispatch (eventId : String) :
    (dispatch eventId).planned engine = [plan eventId] := rfl

theorem digestKey_plan (eventId : String) : (plan eventId).digestKey = none := rfl

theorem meets_commit : Meets engine planned (.commit 0 draws) := by
  intro d hd
  obtain rfl : dispatch "evt-1" = d := Option.some.inj hd
  refine ⟨fun _ h ↦ absurd h not_mem_nil, fun p hp key hkey ↦ ?_⟩
  rw [planned_dispatch, mem_singleton] at hp
  rw [hp, digestKey_plan] at hkey
  cases hkey

theorem reached_written : Reached engine (Meets engine) written :=
  .step _ (.step _ .start trivial) meets_commit

theorem exists_onEvent : ∃ db, onEvent engine (dispatch "evt-1") draws 0 {} = .ok db := ⟨_, rfl⟩

theorem written_eq : written.dispatched = [dispatch "evt-1"] ∧ written.now = 0 ∧
    written.inFlight = [] := by
  obtain ⟨db, hdb⟩ := exists_onEvent
  have hstep : written = { planned with
      db := db
      inFlight := []
      dispatched := [dispatch "evt-1"] } := by
    rw [written, World.step, show planned.inFlight[0]? = some (dispatch "evt-1") from rfl]
    simp only
    rw [show onEvent engine (dispatch "evt-1") draws planned.now planned.db = .ok db from hdb]
    rfl
  rw [hstep]
  exact ⟨rfl, rfl, rfl⟩

/-- Another Event of the subject, in the same millisecond. -/
def again : World := written.step engine (.plan (waiting "evt-2") reading fun _ ↦ [])

theorem not_own_again : ¬(again.step engine (.commit 0 draws)).Own engine := by
  obtain ⟨hdispatched, hnow, hflight⟩ := written_eq
  have hsound := reached_written.sound
  have hkeys : ∀ p ∈ (dispatch "evt-2").planned engine,
      p.dedupeKey ∈ written.db.notes.map (·.dedupeKey) := by
    rw [planned_dispatch, forall_mem_singleton]
    have hfirst := hsound.written (dispatch "evt-1") (by rw [hdispatched]; exact mem_cons_self)
      (plan "evt-1") (by rw [planned_dispatch]; exact mem_cons_self)
    have hsame : (plan "evt-2").dedupeKey = (plan "evt-1").dedupeKey := by
      rw [plan, plan, plan_dedupeKey, plan_dedupeKey]
      rfl
    exact hsame ▸ hfirst
  obtain ⟨db, hdb, hnotes⟩ := exists_onEvent_of_written draws 0 hkeys
  have hagain : again = { written with inFlight := [dispatch "evt-2"] } := by
    rw [again, World.step, hflight, hnow]
    rfl
  have hstep : again.step engine (.commit 0 draws) = { written with
      db := db
      inFlight := []
      dispatched := written.dispatched ++ [dispatch "evt-2"] } := by
    rw [hagain, World.step]
    simp only [List.getElem?_cons_zero]
    rw [hnow, hdb]
    rfl
  intro hown
  obtain ⟨n, hn, -, -, hid⟩ := hown (dispatch "evt-2")
    (by rw [hstep]; exact mem_append_right _ mem_cons_self) rule mem_cons_self
    (le_refl 0) verifier mem_cons_self
  rw [hstep] at hn
  obtain ⟨d, hd, hsource, -⟩ := hsound.kept.source n (hnotes ▸ hn)
  rw [hdispatched, mem_singleton] at hd
  rw [hsource, hd] at hid
  exact absurd hid (by decide)

end Sample

end AgentColab.Notifications
