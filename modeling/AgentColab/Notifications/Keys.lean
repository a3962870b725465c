import AgentColab.Notifications.Engine

/-!
# The texts of keys

The parts of a key are set apart by vertical bars, which only the subject can have. So a key names
its rule, its recipient, its subject and its window; and the keys of the rows of the outbox for a
notification, which have one bar, are neither those of posts and reminders nor those of digests.
-/

namespace AgentColab.Notifications

open AgentColab List

/-! ## Parts without a bar -/

theorem bar_not_mem_uuid (u : Uuid) : '|' ∉ u.text.toList := by
  obtain ⟨a, b, c, d, e, -, -, -, -, -, hall, htext⟩ := isUuidChars_cases u.canonical
  rw [htext]
  intro h
  have hmem : '|' ∈ a ++ b ++ c ++ d ++ e := by
    simp only [mem_append, mem_cons] at h ⊢
    have hne : ('|' : Char) ≠ '-' := by decide
    tauto
  exact absurd (hall _ hmem) (by decide)

theorem bar_not_mem_intText (n : ℤ) : '|' ∉ intText n := fun h ↦
  absurd (isNumeric_intText h) (by decide)

theorem bar_not_mem_notificationIdOf (u : Uuid) : '|' ∉ (notificationIdOf u).toList := by
  rw [notificationIdOf, String.toList_append, mem_append, not_or]
  refine ⟨by decide, fun h ↦ bar_not_mem_uuid u ?_⟩
  rw [hex20, String.toList_ofList] at h
  exact mem_of_mem_filter (mem_of_mem_take h)

variable {channel notificationId subject subject' : String} {a a' b b' : List Char} {x x' : Uuid}
    {bucket bucket' : ℤ}

theorem bar_not_mem_channel (h : channel ∈ perRecipientChannels) : '|' ∉ channel.toList := by
  have hall : ∀ c ∈ perRecipientChannels, '|' ∉ c.toList := by decide
  exact hall channel h

theorem append_bar_inj (ha : '|' ∉ a) (ha' : '|' ∉ a') (h : a ++ '|' :: b = a' ++ '|' :: b') :
    a = a' ∧ b = b' := by
  have hplain : ∀ {t : List Char}, '|' ∉ t → ∀ c ∈ t, (c != '|') = true := fun ht c hc ↦
    bne_iff_ne.2 fun heq ↦ ht (heq ▸ hc)
  obtain ⟨hfront, hrest⟩ := append_inj_of_all (hplain ha) (hplain ha') (by simp) (by simp) h
  exact ⟨hfront, (List.cons.inj hrest).2⟩

theorem append_last_bar_inj (hb : '|' ∉ b) (hb' : '|' ∉ b') (h : a ++ '|' :: b = a' ++ '|' :: b') :
    a = a' ∧ b = b' := by
  have hrev := congrArg List.reverse h
  simp only [reverse_append, reverse_cons, append_assoc, singleton_append]
    at hrev
  obtain ⟨hlast, hfront⟩ := append_bar_inj (by rwa [mem_reverse]) (by rwa [mem_reverse]) hrev
  exact ⟨reverse_injective hfront, reverse_injective hlast⟩

theorem dedupeText_inj {ruleId ruleId' : String} (hrule : '|' ∉ ruleId.toList)
    (hrule' : '|' ∉ ruleId'.toList)
    (h : dedupeText ruleId x subject bucket = dedupeText ruleId' x' subject' bucket') :
    ruleId = ruleId' ∧ x = x' ∧ subject = subject' ∧ bucket = bucket' := by
  obtain ⟨hid, h⟩ := append_bar_inj hrule hrule' h
  obtain ⟨hrecipient, h⟩ := append_bar_inj (bar_not_mem_uuid x) (bar_not_mem_uuid x') h
  obtain ⟨hsubject, hbucket⟩ :=
    append_last_bar_inj (bar_not_mem_intText bucket) (bar_not_mem_intText bucket') h
  refine ⟨String.toList_inj.1 hid, ?_, String.toList_inj.1 hsubject, intText_inj hbucket⟩
  cases x
  cases x'
  simpa using String.toList_inj.1 hrecipient

theorem dedupeKey_inj {sha256 : Digest} (hinj : Function.Injective sha256) {rule rule' : Rule} (h
    : dedupeKey sha256 rule.ruleId x subject bucket = dedupeKey sha256 rule'.ruleId x' subject'
    bucket') : rule.ruleId = rule'.ruleId ∧ x = x' ∧ subject = subject' ∧ bucket = bucket' := by
  have hbytes := hinj h
  have htext := String.toByteArray_inj.1 (ByteArray.ext (Array.toList_inj.1 hbytes))
  exact dedupeText_inj rule.plain rule'.plain (String.ofList_injective htext)

/-! ## The keys of the outbox -/

/-- A key of a row for a notification. -/
def IsDirect (key notificationId : String) : Prop :=
  '|' ∉ notificationId.toList ∧
    ∃ channel : String, '|' ∉ channel.toList ∧ key = notificationId ++ "|" ++ channel

theorem toList_direct (notificationId channel : String) :
    (notificationId ++ "|" ++ channel).toList = notificationId.toList ++ '|' :: channel.toList := by
  simp [String.toList_append]

theorem IsDirect.count {key : String} (h : IsDirect key notificationId) :
    key.toList.count '|' = 1 := by
  obtain ⟨hid, channel, hchannel, rfl⟩ := h
  rw [toList_direct, List.count_append, count_cons_self, List.count_eq_zero.2 hid,
    List.count_eq_zero.2 hchannel]

theorem eq_of_isDirect {notificationId' : String} (hid : '|' ∉ notificationId.toList)
    (h : IsDirect (notificationId ++ "|" ++ channel) notificationId') :
    notificationId' = notificationId := by
  obtain ⟨hid', channel', -, heq⟩ := h
  have htext := congrArg String.toList heq
  rw [toList_direct, toList_direct] at htext
  exact (String.toList_inj.1 (append_bar_inj hid hid' htext).1).symm

theorem not_isDirect_post (e : Event) (now : Time) (ruleId channel channelUuid id : String) :
    ¬IsDirect (postRow e now ruleId channel channelUuid).dedupeKey id := by
  intro h
  have hcount := h.count
  simp only [postRow, String.toList_append, List.count_append] at hcount
  have hbar : "|".toList.count '|' = 1 := by decide
  omega

theorem not_isDirect_reminder (rule : Rule) (nid : String) (x : Uuid) (tag : String) (at' : Time)
    (channel id : String) : ¬IsDirect (reminderRow rule nid x tag at' channel).dedupeKey id := by
  intro h
  have hcount := h.count
  simp only [reminderRow, String.toList_append, List.count_append] at hcount
  have hbar : "|".toList.count '|' = 1 := by decide
  omega

theorem count_digest {recipient hourText : List Char} (hrecipient : '|' ∉ recipient)
    (hhour : '|' ∉ hourText) :
    (String.ofList ("digest:".toList ++ recipient ++ ':' :: hourText)).toList.count '|' = 0 := by
  rw [String.toList_ofList, List.count_eq_zero, mem_append, mem_append, mem_cons]
  exact not_or.2 ⟨not_or.2 ⟨by decide, hrecipient⟩, not_or.2 ⟨by decide, hhour⟩⟩

theorem not_isDirect_digest (recipient : Uuid) (deliverAt : Time) (id : String) :
    ¬IsDirect (digestKey recipient deliverAt) id := fun h ↦
  Nat.zero_ne_one ((count_digest (bar_not_mem_uuid recipient)
    (bar_not_mem_intText (truncate (timestamp deliverAt)))).symm.trans h.count)

end AgentColab.Notifications
