import AgentColab.Identity.Challenges
import Mathlib.Data.List.Induction
import Mathlib.Order.Nat
import AgentColab.Domain.Runs

/-!
# How often a code can be guessed

The failures of the latest challenge bound the wrong codes that are recent: five are counted without
a lock, and from the sixth on each is followed by a lock that outlasts it. A confirmation that is
alone writes back its row with one change; a challenge that is inserted takes the bound over when no
wrong code is recent.
-/

namespace AgentColab.Identity

open List Option

/-! ## The latest row -/

theorem latest_append (cs : List Challenge) (c : Challenge) :
    latest (cs ++ [c]) = newer (latest cs) c := by
  rw [latest, foldl_append]
  rfl

variable {x : Option Challenge} {c c' ch : Challenge} {cs : List Challenge}
    {as attempts : List Attempt} {now : Time} {t : Transaction} {w w' : World} {i : ℕ}
    {p : ℕ × Transaction} {caller : Caller} {path : Path} {account code : String} {label : Label}
    {ls : List Label}

theorem mem_of_newer (h : newer x c = some c') : c' = c ∨ x = some c' := by
  cases x with
  | none => exact .inl (some.inj h).symm
  | some =>
    rw [newer] at h
    split_ifs at h
    · exact .inl (some.inj h).symm
    · exact .inr h

theorem mem_of_latest : ∀ {c : Challenge}, latest cs = some c → c ∈ cs := by
  induction cs using List.reverseRecOn with
  | nil => exact fun h ↦ (nomatch h)
  | append_singleton _ c ih =>
    intro c' h
    rw [latest_append] at h
    rcases mem_of_newer h with rfl | h
    · exact mem_append_right _ (mem_singleton_self _)
    · exact mem_append_left _ (ih h)

theorem latest_map {f : Challenge → Challenge} (hid : ∀ c, (f c).id = c.id)
    (hexpires : ∀ c, (f c).expiresAt = c.expiresAt) (cs : List Challenge) :
    latest (cs.map f) = (latest cs).map f := by
  induction cs using List.reverseRecOn with
  | nil => rfl
  | append_singleton cs c ih =>
    rw [map_append, map_singleton, latest_append, latest_append, ih]
    cases latest cs with
    | none => rfl
    | some best =>
      have hbefore : (f best).Before (f c) ↔ best.Before c := by
        unfold Challenge.Before Challenge.createdAt
        rw [hid, hid, hexpires, hexpires]
      rw [map_some, newer, newer]
      by_cases h : best.Before c
      · rw [if_pos h, if_pos (hbefore.2 h)]
        rfl
      · rw [if_neg h, if_neg fun h' ↦ h (hbefore.1 h')]
        rfl

theorem id_update (ch c : Challenge) : (ch.update c).id = c.id := by
  unfold Challenge.update
  split_ifs <;> rfl

theorem expiresAt_update (ch c : Challenge) : (ch.update c).expiresAt = c.expiresAt := by
  unfold Challenge.update
  split_ifs <;> rfl

theorem update_self {ch' : Challenge} (hid : ch'.id = ch.id) (hhash : ch'.codeHash = ch.codeHash)
    (hexpires : ch'.expiresAt = ch.expiresAt) : ch'.update ch = ch' := by
  unfold Challenge.update
  rw [if_pos hid.symm]
  cases ch'
  cases ch
  cases hid
  cases hhash
  cases hexpires
  rfl

/-! ## What is recent -/

theorem recent_cons (a : Attempt) (as : List Attempt) (t : Time) :
    recent (a :: as) t = recent as t + if a.wrong ∧ t < a.time + lockout then 1 else 0 := by
  rw [recent, countP_cons]
  simp only [decide_eq_true_eq]
  rfl

theorem recent_cons_right (time : Time) (as : List Attempt) (t : Time) :
    recent (⟨time, false⟩ :: as) t = recent as t := by
  rw [recent_cons, if_neg (by simp), Nat.add_zero]

theorem recent_eq_zero {t : Time} (h : ∀ a ∈ as, a.wrong → a.time + lockout ≤ t) :
    recent as t = 0 := by
  rw [recent, countP_eq_zero]
  intro a ha hrecent
  obtain ⟨hwrong, hlt⟩ := of_decide_eq_true hrecent
  exact absurd hlt (Int.not_lt.2 (h a ha hwrong))

theorem wrongWithin_le (h : Bounded as) (t : Time) : wrongWithin as t ≤ maxFailures + 1 := by
  induction as with
  | nil => exact Nat.zero_le _
  | cons a as ih =>
    rw [wrongWithin, countP_cons, ← wrongWithin]
    split_ifs with ha
    · obtain ⟨-, hle, hlt⟩ := of_decide_eq_true ha
      have hmono : wrongWithin as t ≤ recent as a.time := by
        refine countP_mono_left fun b _ hb ↦ ?_
        obtain ⟨hwrong, hb, -⟩ := of_decide_eq_true hb
        refine decide_eq_true ⟨hwrong, ?_⟩
        exact Int.lt_of_lt_of_le hlt (Int.add_le_add_right hb _)
      exact Nat.add_le_add_right (hmono.trans h.1) 1
    · exact ih h.2

/-- The failures of a challenge bound the wrong codes that are recent while it is not locked. -/
def Quota (attempts : List Attempt) : Option Challenge → Prop
  | none => ∀ a ∈ attempts, ¬a.wrong
  | some c => ∀ t, c.createdAt ≤ t → ¬c.Locked t →
      recent attempts t ≤ c.failures ∧ recent attempts t ≤ maxFailures

theorem Quota.cons_right (h : Quota attempts x) (time : Time) :
    Quota (⟨time, false⟩ :: attempts) x := by
  cases x with
  | none =>
    intro a ha
    rcases mem_cons.1 ha with rfl | ha
    · simp
    · exact h a ha
  | some =>
    intro t ht hunlocked
    rw [recent_cons_right]
    exact h t ht hunlocked

theorem Quota.failed (h : Quota attempts (some c))
    (hlocked : c.lockedUntil ≠ none → maxFailures < c.failures) (hunlocked : ¬c.Locked now) :
    Quota (⟨now, true⟩ :: attempts) (some (c.failed now)) := by
  intro t ht hunlocked'
  change c.createdAt ≤ t at ht
  rw [recent_cons]
  by_cases hmany : maxFailures < c.failures + 1
  · -- the lock outlasts the code
    have hle : now + lockout ≤ t := by
      refine Int.not_lt.1 fun hlt ↦ hunlocked' ⟨now + lockout, ?_, hlt⟩
      exact if_pos hmany
    have hold : ¬c.Locked t := by
      rintro ⟨u, hu, htu⟩
      refine hunlocked ⟨u, hu, Int.lt_of_le_of_lt ?_ htu⟩
      have : (0 : Int) ≤ lockout := by decide
      exact Int.le_trans (Int.le_add_of_nonneg_right this) hle
    rw [if_neg fun hrecent ↦ Int.not_lt.2 hle hrecent.2, Nat.add_zero]
    obtain ⟨hfailures, hmax⟩ := h t ht hold
    exact ⟨hfailures.trans (Nat.le_succ _), hmax⟩
  · have hold : ¬c.Locked t := by
      rintro ⟨u, hu, -⟩
      have hsome : c.lockedUntil ≠ none := by
        rw [mem_def.1 hu]
        exact some_ne_none u
      exact hmany ((hlocked hsome).trans (Nat.lt_succ_self _))
    obtain ⟨hfailures, -⟩ := h t ht hold
    have hone : (if (⟨now, true⟩ : Attempt).wrong ∧ t < now + lockout then 1 else 0) ≤ 1 := by
      split_ifs <;> decide
    have hsum := Nat.add_le_add hfailures hone
    exact ⟨hsum, hsum.trans (Nat.not_lt.1 hmany)⟩

theorem Quota.newer (h : Quota attempts x)
    (hquiet : ∀ a ∈ attempts, a.wrong → a.time + lockout ≤ c.createdAt) :
    Quota attempts (newer x c) := by
  have hnew : Quota attempts (some c) := by
    intro t ht _
    have hzero : recent attempts t = 0 :=
      recent_eq_zero fun a ha hwrong ↦ Int.le_trans (hquiet a ha hwrong) ht
    rw [hzero]
    exact ⟨Nat.zero_le _, Nat.zero_le _⟩
  cases x with
  | none => exact hnew
  | some =>
    rw [Identity.newer]
    split_ifs
    · exact hnew
    · exact h

/-! ## The invariant -/

/-- What an open transaction has read, and still is so. -/
def Knows (w : World) : Transaction → Prop
  | .wrong ch now _ => latest w.challenges = some ch ∧ ch.createdAt ≤ now ∧ ¬ch.Locked now ∧
      ∃ before, w.attempts = ⟨now, true⟩ :: before ∧ Quota before (some ch)
  | .right ch code _ _ checked _ => ch ∈ w.challenges ∧ ch.usedAt = none ∧
      ch.codeHash = codeHash code ∧ checked < ch.expiresAt
  | .approve l _ => l.status = .pendingAdmin
  | .transition _ status => status ≠ .active
  | .start x => ∀ c ∈ x, c.lockedUntil = none

structure Inv (w : World) : Prop where
  ids : (w.challenges.map Challenge.id).Nodup
  locked : ∀ c ∈ w.challenges, c.lockedUntil ≠ none → maxFailures < c.failures
  keys : (w.transactions.map Prod.fst).Nodup
  /-- One confirmation at a time. -/
  single : ∀ p ∈ w.transactions, p.2.Confirms → ∀ q ∈ w.transactions, q.2.Confirms → p.1 = q.1
  knows : ∀ p ∈ w.transactions, Knows w p.2
  quota : (∀ p ∈ w.transactions, ∀ ch now caller, p.2 ≠ .wrong ch now caller) →
    Quota w.attempts (latest w.challenges)
  bounded : Bounded w.attempts
  used : ∀ a ∈ w.accepted, ∃ c ∈ w.challenges, c.id = a.challenge ∧ c.usedAt ≠ none
  once : (w.accepted.map Acceptance.challenge).Nodup
  unexpired : ∀ a ∈ w.accepted, a.time < a.expiresAt

theorem find_mem (h : w.find i = some t) : (i, t) ∈ w.transactions := by
  obtain ⟨l₁, l₂, heq, -⟩ := lookup_eq_some_iff.1 h
  rw [heq]
  exact mem_append_right _ mem_cons_self

theorem nodup_filter_keys {transactions : List (ℕ × Transaction)}
    (h : (transactions.map Prod.fst).Nodup) (p : ℕ × Transaction → Bool) :
    ((transactions.filter p).map Prod.fst).Nodup :=
  h.sublist (filter_sublist.map _)

theorem Inv.eq_of_key (h : Inv w) {q : ℕ × Transaction} (hp : p ∈ w.transactions)
    (hq : q ∈ w.transactions) (hkey : p.1 = q.1) : p = q :=
  inj_on_of_nodup_map h.keys hp hq hkey

theorem Inv.alone_close (h : Inv w) (hi : w.find i = some t) (ht : t.Confirms) :
    ∀ p ∈ w.transactions.filter (·.1 ≠ i), ¬p.2.Confirms := by
  intro p hp hconfirms
  obtain ⟨hp, hne⟩ := mem_filter.1 hp
  exact of_decide_eq_true hne (h.single p hp hconfirms _ (find_mem hi) ht)

theorem knows_of_not_confirms (ht : ¬t.Confirms) (h : Knows w t) : Knows w' t := by
  cases t with
  | start | approve | transition => exact h
  | wrong => exact absurd trivial ht
  | right => exact absurd trivial ht

theorem Inv.quota_of_alone (h : Inv w) (halone : w.Alone) :
    Quota w.attempts (latest w.challenges) := by
  refine h.quota fun p hp ch now caller heq ↦ halone p hp ?_
  rw [heq]
  trivial

theorem Inv.find_of_mem (h : Inv w) (hp : p ∈ w.transactions) : w.find p.1 = some p.2 := by
  cases hfind : w.find p.1 with
  | none =>
    have := lookup_eq_none_iff.1 hfind p hp
    simp at this
  | some => rw [← h.eq_of_key (find_mem hfind) hp rfl]

theorem Inv.close (h : Inv w) (hright : ∀ ch now caller, w.find i ≠ some (.wrong ch now caller)) :
    Inv (w.close i) where
  ids := h.ids
  locked := h.locked
  keys := nodup_filter_keys h.keys _
  single := fun p hp hconfirms q hq hconfirms' ↦
    h.single p (mem_of_mem_filter hp) hconfirms q (mem_of_mem_filter hq) hconfirms'
  knows := by
    intro p hp
    have hknows := h.knows p (mem_of_mem_filter hp)
    cases hp' : p.2 with
    | _ => rw [hp'] at hknows; exact hknows
  quota := by
    intro hnone
    refine h.quota fun p hp ch now caller heq ↦ ?_
    by_cases hkey : p.1 = i
    · have := h.find_of_mem hp
      rw [hkey, heq] at this
      exact hright ch now caller this
    · exact hnone p (mem_filter.2 ⟨hp, decide_eq_true hkey⟩) ch now caller heq
  bounded := h.bounded
  used := h.used
  once := h.once
  unexpired := h.unexpired

theorem Inv.cons (h : Inv w) (hi : ∀ p ∈ w.transactions, p.1 ≠ i) (hknows : Knows w t)
    (halone : t.Confirms → w.Alone) : Inv { w with transactions := (i, t) :: w.transactions } where
  ids := h.ids
  locked := h.locked
  keys := by
    refine nodup_cons.2 ⟨fun hmem ↦ ?_, h.keys⟩
    obtain ⟨p, hp, hkey⟩ := List.mem_map.1 hmem
    exact hi p hp hkey
  single := by
    intro p hp hconfirms q hq hconfirms'
    rcases mem_cons.1 hp with rfl | hp
    · rcases mem_cons.1 hq with rfl | hq
      · rfl
      · exact absurd hconfirms' (halone hconfirms q hq)
    · rcases mem_cons.1 hq with rfl | hq
      · exact absurd hconfirms (halone hconfirms' p hp)
      · exact h.single p hp hconfirms q hq hconfirms'
  knows := by
    intro p hp
    rcases mem_cons.1 hp with rfl | hp
    · cases t with
      | _ => exact hknows
    · have hknows := h.knows p hp
      cases hp' : p.2 with
      | _ => rw [hp'] at hknows; exact hknows
  quota := fun hnone ↦ h.quota fun p hp ↦ hnone p (mem_cons_of_mem _ hp)
  bounded := h.bounded
  used := h.used
  once := h.once
  unexpired := h.unexpired

theorem keys_close : ∀ p ∈ (w.close i).transactions, p.1 ≠ i :=
  fun _ hp ↦ of_decide_eq_true (mem_filter.1 hp).2

theorem Inv.set (h : Inv w) (hknows : Knows (w.close i) t)
    (hright : ∀ ch now caller, w.find i ≠ some (.wrong ch now caller))
    (halone : t.Confirms → (w.close i).Alone) : Inv (w.set i t) :=
  (h.close hright).cons keys_close hknows halone

/-! ## A comparison -/

theorem mem_close (hp : p ∈ (w.close i).transactions) : p ∈ w.transactions := mem_of_mem_filter hp

theorem Inv.bounded_cons (h : Inv w) (halone : w.Alone) (hlatest : latest w.challenges = some ch)
    (hcreated : ch.createdAt ≤ now) (hunlocked : ¬ch.Locked now) (wrong : Bool) :
    Bounded (⟨now, wrong⟩ :: w.attempts) := by
  have hquota := h.quota_of_alone halone
  rw [hlatest] at hquota
  exact ⟨(hquota now hcreated hunlocked).2, h.bounded⟩

theorem Inv.wrong (h : Inv w) (halone : w.Alone) (hlatest : latest w.challenges = some ch)
    (hcreated : ch.createdAt ≤ now) (hunlocked : ¬ch.Locked now) (caller : Caller) :
    Inv { w.set i (.wrong ch now caller) with attempts := ⟨now, true⟩ :: w.attempts } where
  ids := h.ids
  locked := h.locked
  keys := by
    refine nodup_cons.2 ⟨fun hmem ↦ ?_, nodup_filter_keys h.keys _⟩
    obtain ⟨p, hp, hkey⟩ := List.mem_map.1 hmem
    exact keys_close p hp hkey
  single := by
    intro p hp hconfirms q hq hconfirms'
    rcases mem_cons.1 hp with rfl | hp
    · rcases mem_cons.1 hq with rfl | hq
      · rfl
      · exact absurd hconfirms' (halone q (mem_close hq))
    · exact absurd hconfirms (halone p (mem_close hp))
  knows := by
    intro p hp
    rcases mem_cons.1 hp with rfl | hp
    · refine ⟨hlatest, hcreated, hunlocked, w.attempts, rfl, ?_⟩
      have hquota := h.quota_of_alone halone
      rwa [hlatest] at hquota
    · exact knows_of_not_confirms (halone p (mem_close hp)) (h.knows p (mem_close hp))
  quota := fun hnone ↦ absurd rfl (hnone _ mem_cons_self ch now caller)
  bounded := h.bounded_cons halone hlatest hcreated hunlocked true
  used := h.used
  once := h.once
  unexpired := h.unexpired

theorem Inv.attempt (h : Inv w) (halone : w.Alone) (hlatest : latest w.challenges = some ch)
    (hcreated : ch.createdAt ≤ now) (hunlocked : ¬ch.Locked now) :
    Inv { w with attempts := ⟨now, false⟩ :: w.attempts } where
  ids := h.ids
  locked := h.locked
  keys := h.keys
  single := h.single
  knows := fun p hp ↦ knows_of_not_confirms (halone p hp) (h.knows p hp)
  quota := fun _ ↦ (h.quota_of_alone halone).cons_right now
  bounded := h.bounded_cons halone hlatest hcreated hunlocked false
  used := h.used
  once := h.once
  unexpired := h.unexpired

theorem Inv.check (h : Inv w) (hi : w.find i = none) (halone : w.Alone)
    (hcreated : ∀ ch ∈ latest w.challenges, ch.createdAt ≤ now)
    (hstep : w.check i caller path account code now = some w') : Inv w' := by
  unfold World.check at hstep
  cases hlatest : latest w.challenges with
  | none =>
    rw [hlatest] at hstep
    cases hstep
  | some ch =>
    rw [hlatest] at hstep
    have hcreated := hcreated ch hlatest
    dsimp only at hstep
    split_ifs at hstep with hlocked hused hhash hexpired
    · obtain rfl := some.inj hstep
      exact h.wrong halone hlatest hcreated hlocked caller
    · obtain rfl := some.inj hstep
      exact h.attempt halone hlatest hcreated hlocked
    · obtain rfl := some.inj hstep
      refine (h.attempt halone hlatest hcreated hlocked).set (i := i) ⟨mem_of_latest hlatest,
        not_not.1 hused, not_not.1 hhash, Int.not_le.1 hexpired⟩ ?_ ?_
      · intro ch now caller hfind
        change w.find i = _ at hfind
        rw [hi] at hfind
        cases hfind
      · exact fun _ p hp ↦ halone p (mem_close (w := w) hp)

/-! ## The commits -/

theorem Inv.eq_of_id (h : Inv w) (hc : c ∈ w.challenges) (hc' : c' ∈ w.challenges)
    (hid : c.id = c'.id) : c = c' :=
  inj_on_of_nodup_map h.ids hc hc' hid

theorem nodup_map_update (h : (cs.map Challenge.id).Nodup) (ch : Challenge) :
    ((cs.map ch.update).map Challenge.id).Nodup := by
  rw [List.map_map]
  have : Challenge.id ∘ ch.update = Challenge.id := funext (id_update ch)
  rw [this]
  exact h

theorem Inv.insert (h : Inv w) (hi : w.find i = some (.start (some c)))
    (hfresh : ∀ c' ∈ w.challenges, c'.id ≠ c.id) (halone : w.Alone)
    (hquiet : ∀ a ∈ w.attempts, a.wrong → a.time + lockout ≤ c.createdAt) :
    Inv { w.close i with challenges := w.challenges ++ [c] } where
  ids := by
    rw [map_append, nodup_append]
    refine ⟨h.ids, by simp, ?_⟩
    intro x hx y hy
    obtain ⟨c', hc', rfl⟩ := List.mem_map.1 hx
    obtain rfl : y = c.id := by simpa using hy
    exact hfresh c' hc'
  locked := by
    intro c' hc' hlocked
    rcases mem_append.1 hc' with hc' | hc'
    · exact h.locked c' hc' hlocked
    · rw [mem_singleton.1 hc'] at hlocked
      exact absurd (h.knows _ (find_mem hi) c rfl) hlocked
  keys := nodup_filter_keys h.keys _
  single := fun p hp hconfirms ↦ absurd hconfirms (halone p (mem_close hp))
  knows := fun p hp ↦ knows_of_not_confirms (halone p (mem_close hp)) (h.knows p (mem_close hp))
  quota := by
    intro _
    rw [latest_append]
    exact (h.quota_of_alone halone).newer hquiet
  bounded := h.bounded
  used := by
    intro a ha
    obtain ⟨c', hc', hused⟩ := h.used a ha
    exact ⟨c', mem_append_left _ hc', hused⟩
  once := h.once
  unexpired := h.unexpired

theorem Inv.fail (h : Inv w) (hi : w.find i = some (.wrong ch now caller)) :
    Inv { w.close i with challenges := w.challenges.map (ch.failed now).update } := by
  obtain ⟨hlatest, -, hunlocked, before, hbefore, hquota⟩ := h.knows _ (find_mem hi)
  have hch := mem_of_latest hlatest
  have hothers := h.alone_close hi trivial
  have hrow : ∀ c ∈ w.challenges, c.id = ch.id → (ch.failed now).update c = ch.failed now := by
    intro c hc hid
    rw [h.eq_of_id hc hch hid]
    exact update_self rfl rfl rfl
  have hother : ∀ c : Challenge, c.id ≠ ch.id → (ch.failed now).update c = c :=
    fun c hid ↦ if_neg hid
  refine
    { ids := nodup_map_update h.ids _
      locked := ?_
      keys := nodup_filter_keys h.keys _
      single := fun p hp hconfirms ↦ absurd hconfirms (hothers p hp)
      knows := fun p hp ↦ knows_of_not_confirms (hothers p hp) (h.knows p (mem_close hp))
      quota := fun _ ↦ ?_
      bounded := h.bounded
      used := ?_
      once := h.once
      unexpired := h.unexpired }
  · intro c' hc' hlocked
    obtain ⟨c, hc, rfl⟩ := List.mem_map.1 hc'
    by_cases hid : c.id = ch.id
    · rw [hrow c hc hid] at hlocked ⊢
      change (if maxFailures < ch.failures + 1 then some (now + lockout) else none) ≠ none at hlocked
      split_ifs at hlocked with hmany
      · exact hmany
      · exact absurd rfl hlocked
    · rw [hother c hid] at hlocked ⊢
      exact h.locked c hc hlocked
  · change Quota w.attempts (latest (w.challenges.map (ch.failed now).update))
    rw [latest_map (id_update _) (expiresAt_update _), hlatest, map_some, hrow ch hch rfl, hbefore]
    exact hquota.failed (h.locked ch hch) hunlocked
  · intro a ha
    obtain ⟨c, hc, hid, hused⟩ := h.used a ha
    refine ⟨_, List.mem_map_of_mem hc, (id_update _ c).trans hid, ?_⟩
    by_cases hid' : c.id = ch.id
    · rw [hrow c hc hid']
      rw [h.eq_of_id hc hch hid'] at hused
      exact hused
    · rw [hother c hid']
      exact hused

theorem Inv.accept (h : Inv w) {checked : Time} {found : Option (Time × Option Link)}
    (link : Option Link) (hi : w.find i = some (.right ch code path account checked found)) :
    Inv { w.close i with
      challenges := w.challenges.map (ch.used now account).update
      link := link
      accepted := w.accepted ++ [⟨ch.id, checked, ch.expiresAt⟩] } := by
  obtain ⟨hch, hunused, -, hunexpired⟩ := h.knows _ (find_mem hi)
  have hothers := h.alone_close hi trivial
  have hrow : ∀ c ∈ w.challenges, c.id = ch.id →
      c = ch ∧ (ch.used now account).update c = ch.used now account := by
    intro c hc hid
    obtain rfl := h.eq_of_id hc hch hid
    exact ⟨rfl, update_self rfl rfl rfl⟩
  have hother : ∀ c : Challenge, c.id ≠ ch.id → (ch.used now account).update c = c :=
    fun c hid ↦ if_neg hid
  have hsame : ∀ c ∈ w.challenges, ((ch.used now account).update c).lockedUntil = c.lockedUntil ∧
        ((ch.used now account).update c).failures = c.failures := by
    intro c hc
    by_cases hid : c.id = ch.id
    · obtain ⟨rfl, heq⟩ := hrow c hc hid
      rw [heq]
      exact ⟨rfl, rfl⟩
    · rw [hother c hid]
      exact ⟨rfl, rfl⟩
  have hquota : Quota w.attempts (latest w.challenges) := by
    refine h.quota fun p hp ch' now' caller heq ↦ ?_
    have hkey := h.single p hp (by rw [heq]; trivial) _ (find_mem hi) trivial
    have hfind := h.find_of_mem hp
    rw [hkey, hi, heq] at hfind
    cases hfind
  refine
    { ids := nodup_map_update h.ids _
      locked := ?_
      keys := nodup_filter_keys h.keys _
      single := fun p hp hconfirms ↦ absurd hconfirms (hothers p hp)
      knows := fun p hp ↦ knows_of_not_confirms (hothers p hp) (h.knows p (mem_close hp))
      quota := fun _ ↦ ?_
      bounded := h.bounded
      used := ?_
      once := ?_
      unexpired := ?_ }
  · intro c' hc' hlocked
    obtain ⟨c, hc, rfl⟩ := List.mem_map.1 hc'
    rw [(hsame c hc).1] at hlocked
    rw [(hsame c hc).2]
    exact h.locked c hc hlocked
  · change Quota w.attempts (latest (w.challenges.map (ch.used now account).update))
    rw [latest_map (id_update _) (expiresAt_update _)]
    cases hlatest : latest w.challenges with
    | none =>
      rw [hlatest] at hquota
      exact hquota
    | some c =>
      rw [hlatest] at hquota
      obtain ⟨hlocked, hfailures⟩ := hsame c (mem_of_latest hlatest)
      intro t ht hunlocked
      rw [Challenge.createdAt, expiresAt_update] at ht
      rw [Challenge.Locked, hlocked] at hunlocked
      rw [hfailures]
      exact hquota t ht hunlocked
  · intro a ha
    rcases mem_append.1 ha with ha | ha
    · obtain ⟨c, hc, hid, hused⟩ := h.used a ha
      refine ⟨_, List.mem_map_of_mem hc, (id_update _ c).trans hid, ?_⟩
      by_cases hid' : c.id = ch.id
      · rw [(hrow c hc hid').2]
        exact some_ne_none now
      · rw [hother c hid']
        exact hused
    · rw [mem_singleton.1 ha]
      refine ⟨_, List.mem_map_of_mem hch, id_update _ ch, ?_⟩
      rw [(hrow ch hch rfl).2]
      exact some_ne_none now
  · rw [map_append, nodup_append]
    refine ⟨h.once, by simp, ?_⟩
    intro x hx y hy heq
    obtain ⟨a, ha, rfl⟩ := List.mem_map.1 hx
    obtain rfl : y = ch.id := by simpa using hy
    obtain ⟨c, hc, hid, hused⟩ := h.used a ha
    rw [(hrow c hc (hid.trans heq)).1] at hused
    exact hused hunused
  · intro a ha
    rcases mem_append.1 ha with ha | ha
    · exact h.unexpired a ha
    · rw [mem_singleton.1 ha]
      exact hunexpired

theorem Inv.write (h : Inv w) (hright : ∀ ch now caller, w.find i ≠ some (.wrong ch now caller))
    (link : Option Link) : Inv { w.close i with link := link } := by
  have hclose := h.close hright
  exact ⟨hclose.ids, hclose.locked, hclose.keys, hclose.single, hclose.knows, hclose.quota,
    hclose.bounded, hclose.used, hclose.once, hclose.unexpired⟩

theorem Inv.commit (h : Inv w) (hseparate : Separate w (.commit i))
    (hstep : w.step (.commit i) = some w') : Inv w' := by
  rw [World.step] at hstep
  rw [Separate] at hseparate
  cases hi : w.find i with
  | none =>
    rw [hi] at hstep
    cases hstep
  | some t =>
    rw [hi] at hstep hseparate
    cases t with
    | start x =>
      cases x with
      | none => cases hstep
      | some =>
        dsimp only at hstep hseparate
        split_ifs at hstep with hfresh
        obtain rfl := some.inj hstep
        exact h.insert hi hfresh hseparate.1 hseparate.2
    | wrong _ _ caller =>
      cases caller with
      | endpoint => cases hstep
      | slash =>
        obtain rfl := some.inj hstep
        exact h.fail hi
    | right _ _ _ _ _ found =>
      cases found with
      | none => cases hstep
      | some =>
        dsimp only at hstep
        split_ifs at hstep
        obtain rfl := some.inj hstep
        exact h.accept _ hi
    | approve l now | transition =>
      obtain rfl := some.inj hstep
      exact h.write (fun ch now caller heq ↦ by rw [hi] at heq; cases heq) _

theorem Inv.step (h : Inv w) (hseparate : Separate w label) (hstep : w.step label = some w') :
    Inv w' := by
  -- a transaction that begins, and compares no code
  have hbegin : ∀ {i : ℕ} {t : Transaction}, w.find i = none → ¬t.Confirms →
      Knows (w.close i) t → Inv (w.set i t) := by
    intro i t hi ht hknows
    refine h.set hknows (fun ch now caller heq ↦ ?_) fun hconfirms ↦ absurd hconfirms ht
    rw [hi] at heq
    cases heq
  cases label with
  | begin i =>
    rw [World.step] at hstep
    split at hstep
    · rename_i hi
      split_ifs at hstep
      obtain rfl := some.inj hstep
      exact hbegin hi id fun c hc ↦ (nomatch hc)
    · cases hstep
  | look i now code id =>
    rw [World.step] at hstep
    split at hstep
    · rename_i hi
      split_ifs at hstep
      obtain rfl := some.inj hstep
      refine h.set (fun c hc ↦ ?_) (fun ch now caller heq ↦ ?_) fun hconfirms ↦ hconfirms.elim
      · obtain rfl := some.inj hc
        rfl
      · rw [hi] at heq
        cases heq
    · cases hstep
  | check i caller path account code now =>
    rw [World.step] at hstep
    split at hstep
    · rename_i hi
      exact h.check hi hseparate.1 (fun ch hch ↦ (hseparate.2 ch hch).1) hstep
    · cases hstep
  | readLink i now =>
    rw [World.step] at hstep
    split at hstep
    · rename_i ch code path account checked hi
      split_ifs at hstep
      obtain rfl := some.inj hstep
      refine h.set (h.knows _ (find_mem hi)) (fun ch now caller heq ↦ ?_) fun _ ↦ ?_
      · rw [hi] at heq
        cases heq
      · exact h.alone_close hi trivial
    · cases hstep
  | approve i now =>
    rw [World.step] at hstep
    split at hstep
    · rename_i l hi hlink
      split_ifs at hstep with hstatus
      obtain rfl := some.inj hstep
      exact hbegin hi id hstatus
    · cases hstep
  | suspend i | revoke i =>
    rw [World.step] at hstep
    split at hstep
    · rename_i l hi hlink
      split_ifs at hstep
      obtain rfl := some.inj hstep
      exact hbegin hi id (LinkStatus.noConfusion ·)
    · cases hstep
  | commit => exact h.commit hseparate hstep
  | stop =>
    obtain rfl := some.inj hstep
    refine h.close fun ch now caller heq ↦ ?_
    rw [Separate, heq] at hseparate
    exact hseparate

theorem Inv.start (link : Option Link) : Inv (World.start link) where
  ids := nodup_nil
  locked := forall_mem_nil _
  keys := nodup_nil
  single := forall_mem_nil _
  knows := forall_mem_nil _
  quota := fun _ ↦ forall_mem_nil _
  bounded := trivial
  used := forall_mem_nil _
  once := nodup_nil
  unexpired := forall_mem_nil _

theorem Run.inv (hrun : Run Separate w ls w') (h : Inv w) : Inv w' := by
  induction hrun with
  | nil => exact h
  | cons hstep hC _ ih => exact ih (h.step hC hstep)

/-! ## The link -/

theorem link_step (hstep : w.step label = some w') :
    (∃ i, label = .commit i) ∨ w'.link = w.link := by
  cases label with
  | commit i => exact .inl ⟨i, rfl⟩
  | begin | look | readLink | approve | suspend | revoke =>
    rw [World.step] at hstep
    split at hstep
    · split_ifs at hstep
      cases hstep
      exact .inr rfl
    · cases hstep
  | check =>
    rw [World.step] at hstep
    split at hstep
    · unfold World.check at hstep
      split at hstep
      · cases hstep
      · split_ifs at hstep <;> cases hstep <;> exact .inr rfl
    · cases hstep
  | stop =>
    cases hstep
    exact .inr rfl

theorem Inv.vouched (h : Inv w) (hstep : w.step label = some w') (hinactive : ¬w.Active)
    (hactive : w'.Active) : w.Vouched label := by
  rcases link_step hstep with ⟨i, rfl⟩ | hlink
  · obtain ⟨l', hl', hstatus⟩ := hactive
    refine ⟨i, rfl, ?_⟩
    rw [World.step] at hstep
    cases hi : w.find i with
    | none =>
      rw [hi] at hstep
      cases hstep
    | some t =>
      rw [hi] at hstep
      have hknows := h.knows _ (find_mem hi)
      cases t with
      | start x =>
        cases x with
        | none => cases hstep
        | some =>
          dsimp only at hstep
          split_ifs at hstep
          cases hstep
          exact absurd ⟨l', hl', hstatus⟩ hinactive
      | wrong _ _ caller =>
        cases caller with
        | endpoint => cases hstep
        | slash =>
          cases hstep
          exact absurd ⟨l', hl', hstatus⟩ hinactive
      | right ch code path account checked found =>
        cases found with
        | none => cases hstep
        | some =>
          dsimp only at hstep
          split_ifs at hstep
          cases hstep
          obtain rfl := some.inj hl'
          cases path with
          | web => exact .inl ⟨ch, code, account, checked, _, rfl, hknows.1, hknows.2.2.1⟩
          | command => cases hstatus
      | approve l now => exact .inr ⟨l, now, rfl, hknows⟩
      | transition =>
        cases hstep
        obtain rfl := some.inj hl'
        exact absurd hstatus hknows
  · rw [World.Active, hlink] at hactive
    exact absurd hactive hinactive

theorem Inv.guarded (h : Inv w) : Guarded w where
  within := wrongWithin_le h.bounded
  refused := h.bounded
  once := h.once
  unexpired := h.unexpired
  active := fun _ _ hstep hinactive hactive ↦ h.vouched hstep hinactive hactive

/-- Confirmations one after the other, of which every wrong code is counted, are bounded. -/
theorem challenges_guarded {link : Option Link} {w : World} {ls : List Label}
    (hrun : Run Separate (World.start link) ls w) : Guarded w :=
  (hrun.inv (.start link)).guarded

/-! ## Runs of one pair -/

/-- The run of a list of statements that all meet a condition. -/
def World.runLabels (C : World → Label → Prop) [∀ w l, Decidable (C w l)] (w : World) :
    List Label → Option World
  | [] => some w
  | l :: ls => if C w l then (w.step l).bind fun w₁ ↦ w₁.runLabels C ls else none

theorem World.run_of_runLabels {C : World → Label → Prop} [∀ w l, Decidable (C w l)]
    {w w' : World} (h : w.runLabels C ls = some w') : Run C w ls w' :=
  related_of_run h (fun _ ↦ rfl) (fun _ _ _ ↦ rfl) .nil .cons

namespace Sample

def challenged (id : ℕ) (now : Time) : List Label :=
  [.begin 0, .look 0 now "48151623" id, .commit 0]

def guess (now : Time) : List Label :=
  [.check 0 .slash .command "acct-1" "00000000" now, .commit 0]

def guessWeb (now : Time) : List Label :=
  [.check 0 .endpoint .web "acct-1" "00000000" now, .stop 0]

def confirmed : List Label :=
  challenged 1 0 ++ guess 1 ++
    [.check 0 .endpoint .web "acct-1" "48151623" 2, .readLink 0 3, .commit 0]

def restarted : List Label :=
  challenged 1 0 ++ (List.range 5).flatMap (fun k ↦ guess k) ++ challenged 2 5 ++ guess 6 ++ guess 7

def endpoint : List Label := challenged 1 0 ++ (List.range 7).flatMap fun k ↦ guessWeb k

def twice : List Label :=
  challenged 1 0 ++
    [.check 1 .endpoint .web "acct-1" "48151623" 1, .check 2 .endpoint .web "acct-2" "48151623" 1,
      .readLink 1 2, .readLink 2 2, .commit 1, .commit 2]

def revokedLink : Link := ⟨"acct-1", .signedChallenge, .revoked, none⟩

end Sample

theorem challenges_guarded_confirmed :
    ∃ w, Run Separate (World.start none) Sample.confirmed w ∧ w.Active ∧ w.attempts.length = 2 ∧
      Guarded w := by
  have hrun : (((World.start none).runLabels Separate Sample.confirmed).any fun w ↦
      w.link = some ⟨"acct-1", .signedChallenge, .active, some 3⟩ ∧
        w.attempts.length = 2) = true := by decide +kernel
  obtain ⟨w, hw, hfacts⟩ := (Option.any_eq_true _ _).1 hrun
  obtain ⟨hlink, hattempts⟩ := of_decide_eq_true hfacts
  have h := World.run_of_runLabels hw
  exact ⟨w, h, ⟨_, hlink, rfl⟩, hattempts, challenges_guarded h⟩

/-- A new challenge gives fresh guesses, the endpoint counts none, and a code is accepted twice. -/
theorem challenges_not_guarded :
    (∃ w, Run (fun _ _ ↦ True) (World.start none) Sample.restarted w ∧ ¬Guarded w ∧
      wrongWithin w.attempts 0 = 7) ∧
    (∃ w, Run (fun _ _ ↦ True) (World.start none) Sample.endpoint w ∧ ¬Guarded w ∧
      wrongWithin w.attempts 0 = 7) ∧
    ∃ w, Run (fun _ _ ↦ True) (World.start (some Sample.revokedLink)) Sample.twice w ∧
      ¬Guarded w ∧ w.accepted.map Acceptance.challenge = [1, 1] := by
  have hseven : ∀ {link : Option Link} {ls : List Label},
      (((World.start link).runLabels (fun _ _ ↦ True) ls).any fun w ↦
        wrongWithin w.attempts 0 = 7) = true →
      ∃ w, Run (fun _ _ ↦ True) (World.start link) ls w ∧ ¬Guarded w ∧
        wrongWithin w.attempts 0 = 7 := by
    intro link ls hrun
    obtain ⟨w, hw, hfacts⟩ := (Option.any_eq_true _ _).1 hrun
    have hcount := of_decide_eq_true hfacts
    refine ⟨w, World.run_of_runLabels hw, fun h ↦ ?_, hcount⟩
    have hle := h.within 0
    rw [hcount] at hle
    exact absurd hle (by decide)
  refine ⟨hseven (by decide +kernel), hseven (by decide +kernel), ?_⟩
  have hrun : (((World.start (some Sample.revokedLink)).runLabels (fun _ _ ↦ True)
      Sample.twice).any fun w ↦ w.accepted.map Acceptance.challenge = [1, 1]) = true := by
    decide +kernel
  obtain ⟨w, hw, hfacts⟩ := (Option.any_eq_true _ _).1 hrun
  have haccepted := of_decide_eq_true hfacts
  refine ⟨w, World.run_of_runLabels hw, fun h ↦ ?_, haccepted⟩
  have hnodup := h.once
  rw [haccepted] at hnodup
  exact absurd hnodup (by decide)

end AgentColab.Identity
