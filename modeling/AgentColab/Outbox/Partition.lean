import AgentColab.Outbox.Drain

/-!
# Which provider gets a row

The kind of a row names the family of its provider. The channel drain and the webhook drain compare
it with a prefix; the notification drain hands over whatever it has selected.
-/

namespace AgentColab.Outbox

open List

def kindFamily (kind : String) : Family :=
  if startsWith kind channelKinds then .channel
  else if startsWith kind webhookKinds then .webhook
  else .notification

inductive Drain where
  | notifications (inp : Input) (provider : NotificationProvider)
  | channels (inp : Input) (providers : String → Option ChannelProvider)
  | webhooks (inp : Input) (provider : ChannelProvider)

namespace Drain

def run (t : Tables) : Drain → Pass × Option String
  | notifications inp provider => drain inp provider t
  | channels inp providers => (drainChannels inp .channel providers channelKinds t, none)
  | webhooks inp provider => (drainWebhooks inp provider t, none)

/-- The notification drain selects notifications only. -/
def Unmixed (t : Tables) : Drain → Prop
  | notifications inp _ => ∀ r ∈ t.select inp, kindFamily r.kind = .notification
  | _ => True

end Drain

/-- What was handed over went to the family that its kind names. -/
def Handed.Matches (x : Handed) : Prop := x.provider = kindFamily x.row.kind

/-- Everything else that writes to the table marks no row as sent. -/
def OtherWriter (t t' : Tables) : Prop :=
  ∀ r ∈ t'.rows, r.delivery.status = .sent →
    ∃ q ∈ t.rows, q.id = r.id ∧ q.kind = r.kind ∧ q.delivery.status = .sent

/-- The tables that are reached by passes that satisfy `C`, and what they have handed over. -/
inductive Run (C : Tables → Drain → Prop) (t₀ : Tables) : Tables → List Handed → Prop where
  | refl : Run C t₀ t₀ []
  | drain {t : Tables} {handed : List Handed} (d : Drain) : Run C t₀ t handed → C t d →
      Run C t₀ (d.run t).1.tables (handed ++ (d.run t).1.handed)
  | change {t t' : Tables} {handed : List Handed} : Run C t₀ t handed → OtherWriter t t' →
      Run C t₀ t' handed

/-- Every row that has been marked as sent was accepted by the provider that its kind names. -/
def Accepted (t₀ t : Tables) (handed : List Handed) : Prop :=
  ∀ r ∈ t.rows, r.delivery.status = .sent →
    (∃ q ∈ t₀.rows, q.id = r.id ∧ q.kind = r.kind ∧ q.delivery.status = .sent) ∨
      ∃ x ∈ handed, x.row.id = r.id ∧ x.row.kind = r.kind ∧ x.accepted = true ∧ x.Matches

section

variable {t t' : Tables} {inp : Input}

variable {r : Row} {x : Handed} {p : Pass}

theorem mem_due : r ∈ t.due inp ↔ r ∈ t.rows ∧ r.Due inp := by
  rw [Tables.due, mem_insertionSort, mem_filter, decide_eq_true_eq]

theorem mem_rows_of_select (h : r ∈ t.select inp) : r ∈ t.rows := (mem_due.1 (mem_of_mem_take h)).1

/-! ## What is handed over -/

theorem handed_drainRow (inp : Input) (provider : NotificationProvider) (p : Pass) (r : Row) :
    (drainRow inp provider p r).1.handed =
      p.handed ++ [⟨r, .notification, (provider.send r).isNone⟩] := by
  rw [drainRow]
  split
  · next error hsend => rw [hsend]; rfl
  · next hsend =>
    rw [hsend]
    split
    · rfl
    · split_ifs
      · split
        · rfl
        · split_ifs <;> rfl
      · rfl

theorem handed_drainRows (inp : Input) (provider : NotificationProvider) (p : Pass) (rows : List Row) :
    ∃ k, (drainRows inp provider p rows).1.handed =
        p.handed ++ (rows.take k).map (fun r ↦ ⟨r, .notification, (provider.send r).isNone⟩) ∧
      ((drainRows inp provider p rows).2 = none → rows.take k = rows) := by
  induction rows generalizing p with
  | nil => exact ⟨0, by simp [drainRows], fun _ ↦ rfl⟩
  | cons r _ ih =>
    have hhanded := handed_drainRow inp provider p r
    rw [drainRows]
    split
    · next p' heq =>
      rw [heq] at hhanded
      obtain ⟨k, hk, hall⟩ := ih p'
      refine ⟨k + 1, ?_, fun h ↦ ?_⟩
      · rw [hk, hhanded, take_succ_cons, map_cons, append_assoc]
        rfl
      · rw [take_succ_cons, hall h]
    · next p' code heq =>
      rw [heq] at hhanded
      exact ⟨1, by simpa using hhanded, fun h ↦ (by cases h)⟩

/-- The notification drain hands over an initial part of its selection, and all of it unless it
raises. -/
theorem handed_drain (inp : Input) (provider : NotificationProvider) (t : Tables) :
    ∃ k, (drain inp provider t).1.handed =
        ((t.select inp).take k).map (fun r ↦ ⟨r, .notification, (provider.send r).isNone⟩) ∧
      ((drain inp provider t).2 = none → (t.select inp).take k = t.select inp) := by
  obtain ⟨k, hk, hall⟩ := handed_drainRows inp provider ⟨t, {}, []⟩ (t.select inp)
  refine ⟨k, ?_⟩
  rw [drain]
  split
  · next p heq =>
    rw [heq] at hk hall
    exact ⟨by simpa using hk, hall⟩
  · next p code heq =>
    rw [heq] at hk
    exact ⟨by simpa using hk, fun h ↦ (by cases h)⟩

variable {family : Family} {providers : String → Option ChannelProvider} {kinds : List String}

theorem handed_deliverRow (inp : Input) (p : Pass) (r : Row) :
    deliverable providers kinds r = false ∧
        (deliverRow inp family providers kinds p r).handed = p.handed ∨
      deliverable providers kinds r = true ∧
        ∃ accepted, (deliverRow inp family providers kinds p r).handed =
          p.handed ++ [⟨r, family, accepted⟩] := by
  rw [deliverRow, deliverable]
  split
  · next hkind =>
    rw [Bool.not_eq_true'] at hkind
    rw [hkind]
    exact .inl ⟨rfl, rfl⟩
  · next hkind =>
    rw [Bool.not_eq_true', Bool.not_eq_false] at hkind
    split
    · next hprovider =>
      rw [hkind, hprovider]
      exact .inl ⟨rfl, rfl⟩
    · next provider hprovider =>
      rw [hkind, hprovider]
      refine .inr ⟨rfl, ?_⟩
      split
      · dsimp only
        split
        · exact ⟨false, rfl⟩
        · exact ⟨false, rfl⟩
      · exact ⟨true, rfl⟩

theorem family_of_drainChannels (hx : x ∈ (drainChannels inp family providers kinds t).handed) :
    x.provider = family ∧ startsWith x.row.kind kinds = true := by
  have hloop : ∀ (rows : List Row) (p : Pass),
      (∀ x ∈ p.handed, x.provider = family ∧ startsWith x.row.kind kinds = true) →
      ∀ x ∈ (rows.foldl (deliverRow inp family providers kinds) p).handed,
        x.provider = family ∧ startsWith x.row.kind kinds = true := by
    intro rows
    induction rows with
    | nil => exact fun p hp ↦ hp
    | cons r _ ih =>
      intro p hp
      refine ih _ fun x hx ↦ ?_
      rcases handed_deliverRow inp p r with ⟨-, h⟩ | ⟨hdel, accepted, h⟩
      · exact hp x (h ▸ hx)
      · rw [h, mem_append, mem_singleton] at hx
        rcases hx with hx | rfl
        · exact hp x hx
        · exact ⟨rfl, (Bool.and_eq_true_iff.1 hdel).1⟩
  exact hloop _ _ (fun x hx ↦ absurd hx not_mem_nil) x hx

theorem not_channel_of_webhook {kind : String} (h : startsWith kind webhookKinds = true) :
    startsWith kind channelKinds = false := by
  simp only [startsWith, webhookKinds, any_cons, any_nil, Bool.or_false, channelKinds] at h ⊢
  cases hk : kind.toList with
  | nil => rfl
  | cons =>
    have hw : "webhook.".toList = 'w' :: "ebhook.".toList := by decide
    have hm : "mattermost.".toList = 'm' :: "attermost.".toList := by decide
    have ht : "telegram.".toList = 't' :: "elegram.".toList := by decide
    rw [hk, hw, List.isPrefixOf, Bool.and_eq_true, beq_iff_eq] at h
    obtain ⟨rfl, -⟩ := h
    rw [hm, ht, List.isPrefixOf, List.isPrefixOf]
    rfl

/-! ## What is marked as sent -/

/-- The rows that a pass has so far, against those it began with. -/
def Follows (t : Tables) (p : Pass) : Prop :=
  ∀ q ∈ p.tables.rows, ∃ q₀ ∈ t.rows, q.id = q₀.id ∧ q.kind = q₀.kind ∧
    (q.delivery.status = .sent → q₀.delivery.status = .sent ∨
      ∃ x ∈ p.handed, x.row = q₀ ∧ x.accepted = true)

theorem Follows.update {f : Delivery → Delivery} {tables : Tables} {result : Result}
    (h : Follows t p) (hr : r ∈ t.rows) (hx : x.row = r)
    (hf : ∀ d, (f d).status = .sent → d.status = .sent ∨ x.accepted = true)
    (hrows : tables.rows = (p.tables.update r.id f).rows) :
    Follows t ⟨tables, result, p.handed ++ [x]⟩ := by
  intro q' hq'
  rw [hrows, Tables.mem_rows_update] at hq'
  obtain ⟨q, hq, rfl⟩ := hq'
  obtain ⟨q₀, hq₀, hid, hkind, hsent⟩ := h q hq
  have hold : q.delivery.status = .sent → q₀.delivery.status = .sent ∨
      ∃ y ∈ p.handed ++ [x], y.row = q₀ ∧ y.accepted = true := by
    intro hs
    rcases hsent hs with hs | ⟨y, hy, hrest⟩
    · exact .inl hs
    · exact .inr ⟨y, mem_append_left _ hy, hrest⟩
  split_ifs with heq
  · refine ⟨q₀, hq₀, hid, hkind, fun hs ↦ ?_⟩
    rcases hf _ hs with hs | haccepted
    · exact hold hs
    · have hrow : q₀ = r := inj_on_of_nodup_map t.primaryKey hq₀ hr (hid.symm.trans heq)
      exact .inr ⟨x, by simp, hx.trans hrow.symm, haccepted⟩
  · exact ⟨q₀, hq₀, hid, hkind, hold⟩

theorem status_failed {attempts : ℕ} {error : String} {d : Delivery}
    (h : (d.failed inp attempts error).status = .sent) : d.status = .sent := by
  rw [Delivery.failed] at h
  split at h
  · simp at h
  · exact h

theorem Follows.drainRow (h : Follows t p) (hr : r ∈ t.rows) (inp : Input)
    (provider : NotificationProvider) : Follows t (drainRow inp provider p r).1 := by
  have hsent : ∀ {tables : Tables} {result : Result},
      tables.rows = (p.tables.update r.id (·.delivered inp)).rows →
      Follows t ⟨tables, result, p.handed ++ [⟨r, .notification, true⟩]⟩ :=
    fun hrows ↦ h.update hr rfl (fun _ _ ↦ .inr rfl) hrows
  rw [Outbox.drainRow]
  split
  · exact h.update hr rfl (fun d hd ↦ .inl (status_failed hd)) rfl
  · split
    · exact hsent rfl
    · split_ifs
      · split
        · exact hsent (by simp)
        · split_ifs
          · exact hsent (by simp)
          · exact hsent (by simp)
      · exact hsent rfl

theorem Follows.drainRows {rows : List Row} (h : Follows t p) (hrows : ∀ r ∈ rows, r ∈ t.rows)
    (inp : Input) (provider : NotificationProvider) :
    Follows t (drainRows inp provider p rows).1 := by
  induction rows generalizing p with
  | nil => exact h
  | cons r _ ih =>
    have hstep := h.drainRow (hrows r mem_cons_self) inp provider
    rw [Outbox.drainRows]
    split
    · next p' heq =>
      rw [heq] at hstep
      exact ih hstep fun r hr ↦ hrows r (mem_cons_of_mem _ hr)
    · next p' code heq => rwa [heq] at hstep

theorem Follows.start (t : Tables) (handed : List Handed) : Follows t ⟨t, {}, handed⟩ :=
  fun q hq ↦ ⟨q, hq, rfl, rfl, fun h ↦ .inl h⟩

theorem Follows.deliverRow (h : Follows t p) (hr : r ∈ t.rows) :
    Follows t (deliverRow inp family providers kinds p r) := by
  rw [Outbox.deliverRow]
  split
  · exact h
  · split
    · exact h
    · split
      · dsimp only
        split
        · exact h.update hr rfl (fun d hd ↦ .inl (status_failed hd)) rfl
        · exact h.update hr rfl (fun d hd ↦ .inl (status_failed hd)) rfl
      · exact h.update hr rfl (fun _ _ ↦ .inr rfl) rfl

theorem Follows.drainChannels : Follows t (drainChannels inp family providers kinds t) := by
  have hloop : ∀ (rows : List Row) (p : Pass), (∀ r ∈ rows, r ∈ t.rows) → Follows t p →
      Follows t (rows.foldl (Outbox.deliverRow inp family providers kinds) p) := by
    intro rows
    induction rows with
    | nil => exact fun p _ hp ↦ hp
    | cons r _ ih =>
      intro p hrows hp
      exact ih _ (fun q hq ↦ hrows q (mem_cons_of_mem _ hq)) (hp.deliverRow (hrows r mem_cons_self))
  exact hloop _ _ (fun r hr ↦ mem_rows_of_select hr) (.start t [])

theorem Follows.run (d : Drain) : Follows t (d.run t).1 := by
  cases d with
  | notifications inp provider =>
    have hrows : ∀ r ∈ t.select inp, r ∈ t.rows := fun r hr ↦ mem_rows_of_select hr
    have hloop := (Follows.start t []).drainRows hrows inp provider
    change Follows t (drain inp provider t).1
    rw [drain]
    split
    · next p heq => rwa [heq] at hloop
    · exact .start t _
  | channels => exact .drainChannels
  | webhooks => exact .drainChannels

end

/-! ## The partition -/

theorem matches_of_unmixed {t : Tables} {d : Drain} (h : d.Unmixed t) :
    ∀ x ∈ (d.run t).1.handed, x.Matches := by
  intro x hx
  cases d with
  | notifications inp provider =>
    obtain ⟨k, hk, -⟩ := handed_drain inp provider t
    rw [Drain.run, hk, List.mem_map] at hx
    obtain ⟨r, hr, rfl⟩ := hx
    exact (h r (mem_of_mem_take hr)).symm
  | channels =>
    obtain ⟨hfamily, hkind⟩ := family_of_drainChannels hx
    rw [Handed.Matches, hfamily, kindFamily, if_pos hkind]
  | webhooks =>
    obtain ⟨hfamily, hkind⟩ := family_of_drainChannels hx
    rw [Handed.Matches, hfamily, kindFamily, if_neg (by rw [not_channel_of_webhook hkind]; decide),
      if_pos hkind]

/-- **The drains partition the table** as long as the notification drain selects notifications only:
a pass that does not raise keeps to its family just then, and in every run of such passes each row
was handed to the family that its kind names, and marked as sent after it was accepted there. -/
theorem drains_partition_iff (t₀ : Tables) : (∀ d : Drain, (d.run t₀).2 = none →
      ((∀ x ∈ (d.run t₀).1.handed, x.Matches) ↔ d.Unmixed t₀)) ∧
    ∀ (t : Tables) (handed : List Handed), Run (fun t d ↦ d.Unmixed t) t₀ t handed →
      (∀ x ∈ handed, x.Matches) ∧ Accepted t₀ t handed := by
  constructor
  · intro d hraised
    refine ⟨fun h ↦ ?_, matches_of_unmixed⟩
    cases d with
    | notifications inp provider =>
      obtain ⟨k, hk, hall⟩ := handed_drain inp provider t₀
      intro r hr
      rw [← hall hraised] at hr
      exact (h _ (by rw [Drain.run, hk]; exact List.mem_map_of_mem hr)).symm
    | channels => trivial
    | webhooks => trivial
  · intro t handed hrun
    induction hrun with
    | refl =>
      exact ⟨fun x hx ↦ absurd hx not_mem_nil, fun r hr hs ↦ .inl ⟨r, hr, rfl, rfl, hs⟩⟩
    | @drain t _ d _ hunmixed ih =>
      have hmatches := matches_of_unmixed hunmixed
      refine ⟨fun x hx ↦ ?_, fun r hr hs ↦ ?_⟩
      · rcases mem_append.1 hx with hx | hx
        · exact ih.1 x hx
        · exact hmatches x hx
      · obtain ⟨q, hq, hid, hkind, hsent⟩ := Follows.run d r hr
        rcases hsent hs with hold | ⟨x, hx, hrow, haccepted⟩
        · rcases ih.2 q hq hold with ⟨q₀, hq₀, hid', hkind', hs'⟩ | ⟨x, hx, hid', hkind', hrest⟩
          · exact .inl ⟨q₀, hq₀, hid'.trans hid.symm, hkind'.trans hkind.symm, hs'⟩
          · exact .inr ⟨x, mem_append_left _ hx, hid'.trans hid.symm,
              hkind'.trans hkind.symm, hrest⟩
        · subst hrow
          exact .inr ⟨x, mem_append_right _ hx, hid.symm, hkind.symm, haccepted, hmatches x hx⟩
    | change _ hother ih =>
      refine ⟨ih.1, fun r hr hs ↦ ?_⟩
      obtain ⟨q, hq, hid, hkind, hsent⟩ := hother r hr hs
      rcases ih.2 q hq hsent with ⟨q₀, hq₀, hid', hkind', hs'⟩ | ⟨x, hx, hid', hkind', hrest⟩
      · exact .inl ⟨q₀, hq₀, hid'.trans hid, hkind'.trans hkind, hs'⟩
      · exact .inr ⟨x, hx, hid'.trans hid, hkind'.trans hkind, hrest⟩

namespace Sample

def row (id : ℕ) (kind destination : String) (next : Time) : Row where
  id := id
  outboxId := "obx-" ++ toString id
  workspaceId := "ws-1"
  kind := kind
  destination := destination
  dedupeKey := "key-" ++ toString id
  createdAt := 0
  delivery := { nextAttemptAt := next }

def input (batch : ℕ) : Input where
  workspaceId := "ws-1"
  now := 1000
  batch := batch

def accepting : NotificationProvider := ⟨fun _ ↦ none, fun _ ↦ none⟩

def posts : Tables := { rows := [row 1 "mattermost.post" "mattermost:town" 0] }

def notices : Tables := { rows := [row 1 "notification" "mattermost:ops" 0] }

end Sample

open Sample

/-- A notification is handed over, and marked as sent. -/
theorem drains_partition_notices : Accepted notices
      (Drain.run notices (.notifications (input 50) accepting)).1.tables
      ([] ++ (Drain.run notices (.notifications (input 50) accepting)).1.handed) := by
  have hunmixed : Drain.Unmixed notices (.notifications (input 50) accepting) := by
    unfold Drain.Unmixed
    decide
  exact ((drains_partition_iff _).2 _ _ (.drain _ .refl hunmixed)).2

theorem post_handed_to_notifications : ¬∀ (t₀ t : Tables) (handed : List Handed),
    Run (fun _ _ ↦ True) t₀ t handed → (∀ x ∈ handed, x.Matches) ∧ Accepted t₀ t handed := by
  intro h
  have hmatches := (h posts _ _ (.drain (.notifications (input 50) accepting) .refl trivial)).1
  have hhanded : (Drain.run posts (.notifications (input 50) accepting)).1.handed =
        [⟨row 1 "mattermost.post" "mattermost:town" 0, .notification, true⟩] := by
    decide
  have hwrong := hmatches ⟨row 1 "mattermost.post" "mattermost:town" 0, .notification, true⟩
    (by rw [hhanded]; decide)
  revert hwrong
  unfold Handed.Matches
  decide

end AgentColab.Outbox
