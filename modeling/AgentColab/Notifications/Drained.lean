import AgentColab.Notifications.Engine

/-!
# What a drain leaves

A drain that gives up no row leaves every row pending or sent, and those it marks as sent were
accepted. A drain that selects every pending row, and whose provider accepts them all, leaves none
pending.
-/

namespace AgentColab.Notifications

open AgentColab Outbox List

/-- A row with another state of its delivery. -/
def SameRow (q r : Row) : Prop := q = { r with delivery := q.delivery }

theorem SameRow.refl (r : Row) : SameRow r r := rfl

theorem SameRow.id {q r : Row} (h : SameRow q r) : q.id = r.id := by
  rw [SameRow] at h
  rw [h]

/-- No row that is refused has had all its attempts. -/
def Patient (inp : Input) (provider : NotificationProvider) (r : Row) : Prop :=
  (provider.send r).isSome → r.delivery.attempts + 1 < inp.maxAttempts

/-- The rows that a pass has so far, against those it began with. -/
structure Drained (t : Tables) (p : Outbox.Pass) : Prop where
  there : ∀ r ∈ t.rows, ∃ q ∈ p.tables.rows, SameRow q r ∧ (r.delivery.status = .pending →
    q.delivery.status = .pending ∨ ∃ x ∈ p.handed, x.row = r ∧ x.accepted = true)
  back : ∀ q ∈ p.tables.rows, ∃ r ∈ t.rows, SameRow q r ∧
    (q.delivery.status = .pending → r.delivery.status = .pending)
  closed : ∀ x ∈ p.handed, x.accepted = true → ∀ q ∈ p.tables.rows, q.id = x.row.id →
    q.delivery.status = .sent

/-- What a pass does to the delivery of a row that it hands over. -/
structure Handles (accepted : Bool) (f : Delivery → Delivery) : Prop where
  pending : ∀ d, d.status = .pending → (f d).status = .pending ∨ accepted = true
  back : ∀ d, (f d).status = .pending → d.status = .pending
  sent : ∀ d, d.status = .sent → (f d).status = .sent
  accepted : accepted = true → ∀ d, (f d).status = .sent

theorem handles_delivered (inp : Input) : Handles true (·.delivered inp) :=
  ⟨fun _ _ ↦ .inr rfl, nofun, fun _ _ ↦ rfl, fun _ _ ↦ rfl⟩

theorem handles_failed {inp : Input} {attempts : ℕ} {error : String}
    (h : attempts + 1 < inp.maxAttempts) : Handles false (·.failed inp attempts error) := by
  have hstatus : ∀ d : Delivery, (d.failed inp attempts error).status = d.status := fun d ↦ by
    rw [Delivery.failed, if_neg (by omega)]
  exact ⟨fun d hd ↦ .inl ((hstatus d).trans hd), fun d hd ↦ (hstatus d).symm.trans hd,
    fun d hd ↦ (hstatus d).trans hd, by simp⟩

section

variable {t : Tables} {p : Outbox.Pass}

variable {r : Row}

theorem Drained.update {f : Delivery → Delivery} {x : Handed} {tables : Tables} {result : Result}
    (h : Drained t p) (hr : r ∈ t.rows) (hx : x.row = r) (hf : Handles x.accepted f)
    (hrows : tables.rows = (p.tables.update r.id f).rows) :
    Drained t ⟨tables, result, p.handed ++ [x]⟩ := by
  refine ⟨fun r₀ hr₀ ↦ ?_, fun q' hq' ↦ ?_, fun y hy haccepted q' hq' hid ↦ ?_⟩
  · obtain ⟨q, hq, hsame, hpending⟩ := h.there r₀ hr₀
    refine ⟨if q.id = r.id then { q with delivery := f q.delivery } else q, ?_, ?_, fun hp ↦ ?_⟩
    · change _ ∈ tables.rows
      rw [hrows]
      exact Tables.mem_rows_update.2 ⟨q, hq, rfl⟩
    · split
      · rw [SameRow, hsame]
      · exact hsame
    · have hhanded := hpending hp
      split
      · rename_i hid
        have heq : r₀ = r := inj_on_of_nodup_map t.primaryKey hr₀ hr (hsame.id.symm.trans hid)
        rcases hhanded with hq | ⟨y, hy, hrest⟩
        · rcases hf.pending _ hq with hq | haccepted
          · exact .inl hq
          · exact .inr ⟨x, mem_append_right _ mem_cons_self, hx.trans heq.symm, haccepted⟩
        · exact .inr ⟨y, mem_append_left _ hy, hrest⟩
      · exact hhanded.imp_right fun ⟨y, hy, hrest⟩ ↦ ⟨y, mem_append_left _ hy, hrest⟩
  · change q' ∈ tables.rows at hq'
    rw [hrows, Tables.mem_rows_update] at hq'
    obtain ⟨q, hq, rfl⟩ := hq'
    obtain ⟨r₀, hr₀, hsame, hback⟩ := h.back q hq
    refine ⟨r₀, hr₀, ?_, fun hp ↦ ?_⟩
    · split
      · rw [SameRow, hsame]
      · exact hsame
    · split at hp
      · exact hback (hf.back _ hp)
      · exact hback hp
  · change q' ∈ tables.rows at hq'
    rw [hrows, Tables.mem_rows_update] at hq'
    obtain ⟨q, hq, rfl⟩ := hq'
    rcases mem_append.1 hy with hy | hy
    · have hsent : q.id = y.row.id → q.delivery.status = .sent := h.closed y hy haccepted q hq
      split at hid
      · rename_i hsame
        rw [if_pos hsame]
        exact hf.sent _ (hsent hid)
      · rename_i hsame
        rw [if_neg hsame]
        exact hsent hid
    · obtain rfl := mem_singleton.1 hy
      rw [hx] at hid
      split at hid
      · rename_i hsame
        rw [if_pos hsame]
        exact hf.accepted haccepted _
      · rename_i hsame
        exact absurd hid hsame

theorem Drained.drainRow (h : Drained t p) (hr : r ∈ t.rows) (inp : Input)
    (provider : NotificationProvider) (hpatient : Patient inp provider r) :
    Drained t (drainRow inp provider p r).1 := by
  have hsent : ∀ {tables : Tables} {result : Result},
      tables.rows = (p.tables.update r.id (·.delivered inp)).rows →
      Drained t ⟨tables, result, p.handed ++ [⟨r, .notification, true⟩]⟩ :=
    fun hrows ↦ h.update hr rfl (handles_delivered inp) hrows
  rw [Outbox.drainRow]
  split
  · rename_i error hsend
    exact h.update hr rfl (handles_failed (hpatient (by rw [hsend]; rfl))) rfl
  · split
    · exact hsent rfl
    · split_ifs
      · split
        · exact hsent (by simp)
        · split_ifs
          · exact hsent (by simp)
          · exact hsent (by simp)
      · exact hsent rfl

theorem Drained.drainRows {rows : List Row} (h : Drained t p) (hrows : ∀ r ∈ rows, r ∈ t.rows)
    (inp : Input) (provider : NotificationProvider)
    (hpatient : ∀ r ∈ rows, Patient inp provider r) :
    Drained t (drainRows inp provider p rows).1 := by
  induction rows generalizing p with
  | nil => exact h
  | cons r _ ih =>
    have hstep := h.drainRow (hrows r mem_cons_self) inp provider (hpatient r mem_cons_self)
    rw [Outbox.drainRows]
    split
    · next p' heq =>
      rw [heq] at hstep
      exact ih hstep (fun r hr ↦ hrows r (mem_cons_of_mem _ hr))
        fun r hr ↦ hpatient r (mem_cons_of_mem _ hr)
    · next p' code heq => rwa [heq] at hstep

theorem Drained.start (t : Tables) : Drained t ⟨t, {}, []⟩ :=
  ⟨fun r hr ↦ ⟨r, hr, .refl r, .inl⟩, fun q hq ↦ ⟨q, hq, .refl q, id⟩,
    fun _ hx ↦ absurd hx not_mem_nil⟩

theorem drained_loop (t : Tables) (inp : Input) (provider : NotificationProvider)
    (hpatient : ∀ r ∈ t.select inp, Patient inp provider r) :
    Drained t (drainRows inp provider ⟨t, {}, []⟩ (t.select inp)).1 :=
  (Drained.start t).drainRows (fun _ hr ↦ mem_rows_of_select hr) inp provider hpatient

theorem drain_eq (t : Tables) (inp : Input) (provider : NotificationProvider) :
    (drain inp provider t).1.tables = t ∨
      drain inp provider t = drainRows inp provider ⟨t, {}, []⟩ (t.select inp) := by
  rw [drain]
  split
  · next p heq => exact .inr heq.symm
  · exact .inl rfl

end

/-! ## Flushing -/

/-- The drain selects whatever is pending, and its provider accepts everything. -/
structure Flushes (inp : Input) (provider : NotificationProvider) (t : Tables) : Prop where
  send : ∀ r, provider.send r = none
  append : ∀ r, provider.append r = none
  due : ∀ r ∈ t.rows, r.delivery.status = .pending → r.Due inp
  batch : t.rows.length ≤ inp.batch

variable {provider : NotificationProvider}

theorem drainRow_snd (inp : Input) (hsend : ∀ r, provider.send r = none)
    (happend : ∀ r, provider.append r = none) (p : Outbox.Pass) (r : Row) :
    (drainRow inp provider p r).2 = none := by
  simp only [drainRow, hsend, happend]
  split
  · rfl
  · split_ifs <;> rfl

theorem drainRows_snd {inp : Input} (hsend : ∀ r, provider.send r = none)
    (happend : ∀ r, provider.append r = none) (rows : List Row) (p : Outbox.Pass) :
    (drainRows inp provider p rows).2 = none := by
  induction rows generalizing p with
  | nil => rfl
  | cons r _ ih =>
    have hnone := drainRow_snd inp hsend happend p r
    rw [drainRows]
    split
    · exact ih _
    · next p' code heq =>
      rw [heq] at hnone
      cases hnone

theorem Flushes.not_pending {inp : Input} {t : Tables} (h : Flushes inp provider t) :
    ∀ q ∈ (drain inp provider t).1.tables.rows, q.delivery.status ≠ .pending := by
  intro q hq hpending
  have hsnd : (drainRows inp provider ⟨t, {}, []⟩ (t.select inp)).2 = none :=
    drainRows_snd h.send h.append _ _
  have hdrain : drain inp provider t = drainRows inp provider ⟨t, {}, []⟩ (t.select inp) := by
    rw [drain]
    split
    · next p heq => exact heq.symm
    · next p code heq =>
      rw [heq] at hsnd
      cases hsnd
  have hdrained := drained_loop t inp provider fun r _ hsome ↦ by
    rw [h.send r] at hsome
    cases hsome
  rw [← hdrain] at hdrained hsnd
  obtain ⟨k, hhanded, hall⟩ := handed_drain inp provider t
  rw [hall hsnd] at hhanded
  obtain ⟨r, hr, hsame, hback⟩ := hdrained.back q hq
  have hselect : r ∈ t.select inp := by
    rw [Tables.select, take_of_length_le]
    · exact mem_due.2 ⟨hr, h.due r hr (hback hpending)⟩
    · rw [Tables.due, length_insertionSort]
      exact (List.length_filter_le ..).trans h.batch
  have hmem : (⟨r, .notification, true⟩ : Handed) ∈ (drain inp provider t).1.handed := by
    rw [hhanded]
    exact List.mem_map.2 ⟨r, hselect, by rw [h.send r]; rfl⟩
  have hsent := hdrained.closed _ hmem rfl q hq hsame.id
  rw [hpending] at hsent
  cases hsent

end AgentColab.Notifications
