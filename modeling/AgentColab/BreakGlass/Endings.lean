import AgentColab.BreakGlass.Sessions
import AgentColab.Domain.Runs

/-!
# Runs in which nobody is overtaken

A row is locked from the end of its session to the commit, so what a transaction is about to write
is still to be written then. Under the condition its Event is the first under its key, and the row
is written once.
-/

namespace AgentColab.BreakGlass

open World List Option
open Function (update_of_ne update_self)

/-! ## What becomes of a row -/

/-- `s'` is the session `s`, some steps later. -/
structure SessionRow.Same (s s' : SessionRow) : Prop where
  sessionId : s'.sessionId = s.sessionId
  accountId : s'.accountId = s.accountId
  startedAt : s'.startedAt = s.startedAt
  expiresAt : s'.expiresAt = s.expiresAt

theorem SessionRow.Same.refl (s : SessionRow) : s.Same s := ⟨rfl, rfl, rfl, rfl⟩

variable {s s' : SessionRow} {e : Ending} {endings : List Ending} {w w' : World} {i j : ℕ}
    {sid : String} {t : Transaction} {q : Activation} {o : Opening} {now : Time} {ls : List Label}

theorem SessionRow.Same.trans {s'' : SessionRow} (h : s.Same s') (h' : s'.Same s'') : s.Same s'' :=
  ⟨h'.1.trans h.1, h'.2.trans h.2, h'.3.trans h.3, h'.4.trans h.4⟩

theorem same_endRow (e : Ending) (s : SessionRow) : s.Same (endRow e s) := by
  unfold endRow
  split_ifs
  · exact ⟨rfl, rfl, rfl, rfl⟩
  · exact .refl s

theorem same_postRow (id : String) (o : Opening) (s : SessionRow) : s.Same (postRow id o s) := by
  unfold postRow
  split_ifs
  · exact ⟨rfl, rfl, rfl, rfl⟩
  · exact .refl s

theorem endedAt_postRow (id : String) (o : Opening) (s : SessionRow) :
    (postRow id o s).endedAt = s.endedAt := by
  unfold postRow
  split_ifs <;> rfl

theorem endedReason_postRow (id : String) (o : Opening) (s : SessionRow) :
    (postRow id o s).endedReason = s.endedReason := by
  unfold postRow
  split_ifs <;> rfl

theorem posthocTaskId_endRow (e : Ending) (s : SessionRow) :
    (endRow e s).posthocTaskId = s.posthocTaskId := by
  unfold endRow
  split_ifs <;> rfl

theorem endRow_of_ne (h : s.sessionId ≠ e.sessionId) : endRow e s = s := if_neg h

/-- The updates of a transaction, one after the other. -/
def endAll (endings : List Ending) (s : SessionRow) : SessionRow :=
  endings.foldl (fun s e ↦ endRow e s) s

theorem same_endAll (endings : List Ending) : ∀ s : SessionRow, s.Same (endAll endings s) := by
  induction endings with
  | nil => exact SessionRow.Same.refl
  | cons e _ ih => exact fun s ↦ (same_endRow e s).trans (ih _)

theorem endAll_of_ne (h : ∀ e ∈ endings, s.sessionId ≠ e.sessionId) : endAll endings s = s := by
  induction endings with
  | nil => rfl
  | cons e _ ih =>
    obtain ⟨he, hrest⟩ := forall_mem_cons.1 h
    rw [endAll, foldl_cons, endRow_of_ne he]
    exact ih hrest

theorem sessions_foldl_endOne (endings : List Ending) : ∀ w : World,
    (endings.foldl endOne w).sessions = w.sessions.map (endAll endings) := by
  induction endings with
  | nil => exact fun w ↦ (List.map_id _).symm
  | cons e _ ih =>
    intro w
    rw [foldl_cons, ih]
    exact List.map_map

theorem foldl_endOne_same (endings : List Ending) : ∀ w : World,
    (endings.foldl endOne w).tasks = w.tasks ∧ (endings.foldl endOne w).locks = w.locks ∧
      (endings.foldl endOne w).transactions = w.transactions := by
  induction endings with
  | nil => exact fun w ↦ ⟨rfl, rfl, rfl⟩
  | cons e _ ih => exact fun w ↦ ih (w.endOne e)

/-! ## What holds of the committed rows -/

structure Sound (w : World) : Prop where
  ids : (w.sessions.map SessionRow.sessionId).Nodup
  events : ∀ s ∈ w.sessions, (w.events.filter (·.sessionId = s.sessionId)).map
    EndedEvent.endedReason = s.endedReason.toList
  ended : ∀ s ∈ w.sessions, s.endedReason.isSome = s.endedAt.isSome
  known : ∀ e ∈ w.events, ∃ s ∈ w.sessions, s.sessionId = e.sessionId
  apart : ∀ s ∈ w.sessions, ∀ s' ∈ w.sessions, s.accountId = s'.accountId → s.endedAt = none →
    s'.endedAt = none → s ≠ s' → s.expiresAt ≤ s'.startedAt ∨ s'.expiresAt ≤ s.startedAt
  followed : ∀ s ∈ w.sessions, s.endedAt ≠ none → s.posthocTaskId = none → s.sessionId ∈ w.todo
  once : (w.tasks.map Prod.fst).Nodup
  opened : ∀ s ∈ w.sessions, ∀ t, s.posthocTaskId = some t → (s.sessionId, t) ∈ w.tasks
  refused : w.refused = []

theorem Sound.same (h : Sound w) (hs : w'.sessions = w.sessions) (he : w'.events = w.events)
    (ht : w'.tasks = w.tasks) (htodo : w'.todo = w.todo) (hr : w'.refused = w.refused) :
    Sound w' := by
  obtain ⟨sessions, events, tasks, locks, transactions, todo, refused⟩ := w'
  obtain rfl : sessions = _ := hs
  obtain rfl : events = _ := he
  obtain rfl : tasks = _ := ht
  obtain rfl : todo = _ := htodo
  obtain rfl : refused = _ := hr
  exact ⟨h.ids, h.events, h.ended, h.known, h.apart, h.followed, h.once, h.opened, h.refused⟩

theorem Sound.eq_of_id (h : Sound w) (hs : s ∈ w.sessions) (hs' : s' ∈ w.sessions)
    (hid : s.sessionId = s'.sessionId) : s = s' :=
  inj_on_of_nodup_map h.ids hs hs' hid

theorem Sound.no_event (h : Sound w) (hs : s ∈ w.sessions) (hopen : s.endedAt = none) :
    w.events.filter (·.sessionId = s.sessionId) = [] := by
  have hreason : s.endedReason = none := by
    have := h.ended s hs
    rw [hopen] at this
    simpa using this
  have := h.events s hs
  rw [hreason] at this
  exact map_eq_nil_iff.1 this

theorem Sound.append (h : Sound w) (hs : s ∈ w.sessions) (hopen : s.endedAt = none)
    (reason : EndedReason) : w.append s.sessionId reason = some [⟨s.sessionId, reason⟩] := by
  have hnone : w.events.find? (·.sessionId = s.sessionId) = none := by
    rw [List.find?_eq_none]
    exact filter_eq_nil_iff.1 (h.no_event hs hopen)
  rw [World.append, hnone]

/-! ## What an open transaction has read -/

/-- The transaction `i` is about to end an open session, whose row it has locked. -/
structure Ends (w : World) (i : ℕ) (e : Ending) : Prop where
  lock : w.locks e.sessionId = some i
  events : e.events = [⟨e.sessionId, e.endedReason⟩]
  known : ∃ s ∈ w.sessions, s.sessionId = e.sessionId
  notEnded : ∀ s ∈ w.sessions, s.sessionId = e.sessionId → s.endedAt = none

def Knows (w : World) (i : ℕ) : Transaction → Prop
  | .activate q seen => seen ≤ w.sessions.length ∧
      ∀ s ∈ w.sessions.take seen, ¬ActiveFor q.accountId q.now s
  | .terminate e => Ends w i e
  | .sweep candidates ended => candidates.Nodup ∧ (ended.map Ending.sessionId).Nodup ∧
      (∀ e ∈ ended, Ends w i e ∧ e.sessionId ∉ candidates) ∧
        ∀ id ∈ candidates, ∃ s ∈ w.sessions, s.sessionId = id
  | .posthoc id o => w.locks id = some i ∧
      (o.created = [] ∨ ∃ t, o.created = [(id, t)] ∧ id ∉ w.tasks.map Prod.fst) ∧
        ∀ t, o.posthocTaskId = some t → (id, t) ∈ w.tasks ++ o.created

/-- What the steps of others leave to the transaction `j`. -/
structure Leaves (w w' : World) (j : ℕ) (f : SessionRow → SessionRow) (new : List SessionRow) :
    Prop where
  sessions : w'.sessions = w.sessions.map f ++ new
  same : ∀ s : SessionRow, s.Same (f s)
  ended : ∀ s ∈ w.sessions, s.endedAt ≠ none → (f s).endedAt = s.endedAt
  fresh : ∀ s ∈ new, s.endedAt = none
  held : ∀ s ∈ w.sessions, w.locks s.sessionId = some j → (f s).endedAt = s.endedAt
  locks : ∀ id, w.locks id = some j → w'.locks id = some j
  tasks : ∃ more, w'.tasks = w.tasks ++ more ∧ ∀ c ∈ more, w.locks c.1 ≠ some j

namespace Leaves

variable {w w' : World} {j : ℕ} {f : SessionRow → SessionRow} {new : List SessionRow}

theorem of_same (hs : w'.sessions = w.sessions) (ht : w'.tasks = w.tasks)
    (hlocks : ∀ id, w.locks id = some j → w'.locks id = some j) : Leaves w w' j id [] where
  sessions := by rw [hs, List.map_id, append_nil]
  same := SessionRow.Same.refl
  ended := fun _ _ _ ↦ rfl
  fresh := forall_mem_nil _
  held := fun _ _ _ ↦ rfl
  locks := hlocks
  tasks := ⟨[], by rw [ht, append_nil], forall_mem_nil _⟩

theorem known (h : Leaves w w' j f new) {id : String} (hid : ∃ s ∈ w.sessions, s.sessionId = id) :
    ∃ s ∈ w'.sessions, s.sessionId = id := by
  obtain ⟨s, hs, rfl⟩ := hid
  refine ⟨f s, ?_, (h.same s).sessionId⟩
  rw [h.sessions]
  exact mem_append_left _ (List.mem_map_of_mem hs)

theorem ends (h : Leaves w w' j f new) (he : Ends w j e) : Ends w' j e where
  lock := h.locks _ he.lock
  events := he.events
  known := h.known he.known
  notEnded := by
    intro s hs hid
    rw [h.sessions] at hs
    rcases mem_append.1 hs with hs | hs
    · obtain ⟨s₀, hs₀, rfl⟩ := List.mem_map.1 hs
      rw [(h.same s₀).sessionId] at hid
      rw [h.held s₀ hs₀ (hid ▸ he.lock)]
      exact he.notEnded s₀ hs₀ hid
    · exact h.fresh s hs

theorem knows (h : Leaves w w' j f new) (hknows : Knows w j t) : Knows w' j t := by
  cases t with
  | activate =>
    obtain ⟨hle, hseen⟩ := hknows
    refine ⟨?_, fun s hs hactive ↦ ?_⟩
    · rw [h.sessions, length_append, length_map]
      exact hle.trans (Nat.le_add_right _ _)
    · rw [h.sessions, take_append_of_le_length (by simpa using hle), ← map_take] at hs
      obtain ⟨s₀, hs₀, rfl⟩ := List.mem_map.1 hs
      obtain ⟨haccount, hopen, hexpires⟩ := hactive
      refine hseen s₀ hs₀ ⟨(h.same s₀).accountId ▸ haccount, ?_, (h.same s₀).expiresAt ▸ hexpires⟩
      by_contra hne
      rw [h.ended s₀ (mem_of_mem_take hs₀) hne] at hopen
      exact hne hopen
  | terminate => exact h.ends hknows
  | sweep =>
    obtain ⟨hnodup, hdistinct, hends, hknown⟩ := hknows
    exact ⟨hnodup, hdistinct, fun e he ↦ ⟨h.ends (hends e he).1, (hends e he).2⟩,
      fun id hid ↦ h.known (hknown id hid)⟩
  | posthoc id =>
    obtain ⟨hlock, hcreated, hopened⟩ := hknows
    obtain ⟨more, hmore, hother⟩ := h.tasks
    refine ⟨h.locks id hlock, ?_, fun t ht ↦ ?_⟩
    · rcases hcreated with hnil | ⟨t, ht, hid⟩
      · exact .inl hnil
      · refine .inr ⟨t, ht, ?_⟩
        rw [hmore, map_append, mem_append]
        rintro (hmem | hmem)
        · exact hid hmem
        · obtain ⟨c, hc, rfl⟩ := List.mem_map.1 hmem
          exact hother c hc hlock
    · rw [hmore, mem_append, mem_append]
      rcases mem_append.1 (hopened t ht) with hmem | hmem
      · exact .inl (.inl hmem)
      · exact .inr hmem

end Leaves

/-- The rows, and what the open transactions have read of them. -/
structure Inv (w : World) : Prop where
  sound : Sound w
  knows : ∀ i t, w.transactions i = some t → Knows w i t

theorem Inv.next {x : Option Transaction} {f : SessionRow → SessionRow} {new : List SessionRow}
    (h : Inv w) (hsound : Sound w') (hset : w'.transactions = Function.update w.transactions i x)
    (hleaves : ∀ j ≠ i, Leaves w w' j f new) (hx : ∀ t, x = some t → Knows w' i t) : Inv w' := by
  refine ⟨hsound, fun j t ht ↦ ?_⟩
  rw [hset] at ht
  by_cases hj : j = i
  · subst hj
    rw [update_self] at ht
    exact hx t ht
  · rw [update_of_ne hj] at ht
    exact (hleaves j hj).knows (h.knows j t ht)

theorem locks_close (hj : j ≠ i) {id : String} (h : w.locks id = some j) :
    (w.close i).locks id = some j := by
  change (if w.locks id = some i then none else w.locks id) = some j
  rw [if_neg (by rw [h]; exact fun heq ↦ hj (some.inj heq)), h]

theorem locks_lock (hj : j ≠ i) {id id' : String} (hfree : w.Free i id) (h : w.locks id' = some j) :
    (w.lock i id).locks id' = some j := by
  change Function.update w.locks id (some i) id' = some j
  rw [update_of_ne, h]
  rintro rfl
  rcases hfree with hnone | hown
  · rw [hnone] at h
    cases h
  · rw [hown] at h
    exact hj (some.inj h).symm

theorem Inv.lock (h : Inv w) (hfree : w.Free i sid) (ht : Knows (w.lock i sid) i t) :
    Inv ((w.lock i sid).set i (some t)) := by
  refine h.next (h.sound.same rfl rfl rfl rfl rfl) rfl
    (fun j hj ↦ .of_same rfl rfl fun _ hid ↦ locks_lock hj hfree hid) fun t' ht' ↦ ?_
  obtain rfl := some.inj ht'
  have hleaves : Leaves (w.lock i sid) ((w.lock i sid).set i (some t)) i id [] :=
    .of_same rfl rfl fun _ hid ↦ hid
  exact hleaves.knows ht

theorem Inv.begin (h : Inv w) (ht : Knows w i t) : Inv (w.set i (some t)) := by
  refine h.next (h.sound.same rfl rfl rfl rfl rfl) rfl
    (fun j _ ↦ .of_same rfl rfl fun _ hid ↦ hid) fun t' ht' ↦ ?_
  obtain rfl := some.inj ht'
  have hleaves : Leaves w (w.set i (some t)) i id [] := .of_same rfl rfl fun _ hid ↦ hid
  exact hleaves.knows ht

theorem Sound.drop (h : Sound w) {id : String} (hfollowed : w.Followed id) :
    Sound { w with todo := w.todo.erase id } := by
  refine ⟨h.ids, h.events, h.ended, h.known, h.apart, fun s hs hended hnone ↦ ?_, h.once, h.opened,
    h.refused⟩
  have hne : s.sessionId ≠ id := by
    intro hid
    have := hfollowed s hs hid
    rw [hnone] at this
    cases this
  exact (mem_erase_of_ne hne).2 (h.followed s hs hended hnone)

/-! ## The end of a session -/

theorem Sound.endOne (h : Sound w) (he : Ends w i e) : Sound (w.endOne e) := by
  have hsame := same_endRow e
  -- the rows that are open after the update are those that it has passed over
  have hopen : ∀ s : SessionRow, (endRow e s).endedAt = none →
      s.sessionId ≠ e.sessionId ∧ endRow e s = s := by
    intro s hs
    unfold endRow at hs ⊢
    split_ifs at hs with hid
    exact ⟨hid, if_neg hid⟩
  have hmap : ∀ {P : SessionRow → Prop}, (∀ s ∈ w.sessions, P (endRow e s)) →
      ∀ s ∈ (w.endOne e).sessions, P s := by
    intro P hall s hs
    obtain ⟨s₀, hs₀, rfl⟩ := List.mem_map.1 hs
    exact hall s₀ hs₀
  have hevents : (w.endOne e).events = w.events ++ [⟨e.sessionId, e.endedReason⟩] :=
    congrArg (w.events ++ ·) he.events
  constructor
  · change ((w.sessions.map (endRow e)).map SessionRow.sessionId).Nodup
    rw [List.map_map]
    have : SessionRow.sessionId ∘ endRow e = SessionRow.sessionId :=
      funext fun s ↦ (hsame s).sessionId
    rw [this]
    exact h.ids
  · refine hmap fun s hs ↦ ?_
    rw [hevents, (hsame s).sessionId, filter_append, map_append, h.events s hs]
    by_cases hid : s.sessionId = e.sessionId
    · have hreason := h.no_event hs (he.notEnded s hs hid)
      rw [← h.events s hs, hreason, endRow, if_pos hid]
      simp [hid]
    · rw [endRow_of_ne hid]
      simpa using fun heq ↦ hid (Eq.symm heq)
  · refine hmap fun s hs ↦ ?_
    unfold endRow
    split_ifs
    · rfl
    · exact h.ended s hs
  · intro ev hev
    rw [hevents] at hev
    obtain ⟨s, hs, hid⟩ : ∃ s ∈ w.sessions, s.sessionId = ev.sessionId := by
      rcases mem_append.1 hev with hev | hev
      · exact h.known ev hev
      · rw [mem_singleton.1 hev]
        exact he.known
    exact ⟨_, List.mem_map_of_mem hs, (hsame s).sessionId.trans hid⟩
  · refine hmap fun s hs ↦ hmap fun s' hs' haccount hs₀ hs₀' hne ↦ ?_
    obtain ⟨-, heq⟩ := hopen s hs₀
    obtain ⟨-, heq'⟩ := hopen s' hs₀'
    rw [heq] at haccount hs₀ hne ⊢
    rw [heq'] at haccount hs₀' hne ⊢
    exact h.apart s hs s' hs' haccount hs₀ hs₀' hne
  · refine hmap fun s hs hended hnone ↦ ?_
    rw [posthocTaskId_endRow] at hnone
    rw [(hsame s).sessionId]
    by_cases hid : s.sessionId = e.sessionId
    · rw [hid]
      exact mem_append_right _ (mem_singleton_self _)
    · rw [endRow_of_ne hid] at hended
      exact mem_append_left _ (h.followed s hs hended hnone)
  · exact h.once
  · refine hmap fun s hs t ht ↦ ?_
    rw [posthocTaskId_endRow] at ht
    rw [(hsame s).sessionId]
    exact h.opened s hs t ht
  · exact h.refused

theorem Ends.endOne {e' : Ending} (h : Ends w i e') (hne : e'.sessionId ≠ e.sessionId) :
    Ends (w.endOne e) i e' where
  lock := h.lock
  events := h.events
  known := by
    obtain ⟨s, hs, hid⟩ := h.known
    exact ⟨_, List.mem_map_of_mem hs, (same_endRow e s).sessionId.trans hid⟩
  notEnded := by
    intro s hs hid
    obtain ⟨s₀, hs₀, rfl⟩ := List.mem_map.1 hs
    rw [(same_endRow e s₀).sessionId] at hid
    rw [endRow_of_ne (hid ▸ hne)]
    exact h.notEnded s₀ hs₀ hid

theorem Sound.foldl_endOne : ∀ {w : World}, Sound w →
    (∀ e ∈ endings, Ends w i e) → (endings.map Ending.sessionId).Nodup →
      Sound (endings.foldl World.endOne w) := by
  induction endings with
  | nil => exact fun h _ _ ↦ h
  | cons e _ ih =>
    intro w h hends hnodup
    obtain ⟨he, hrest⟩ := forall_mem_cons.1 hends
    obtain ⟨hnot, hnodup⟩ := nodup_cons.1 hnodup
    refine ih (h.endOne he) (fun e' he' ↦ (hrest e' he').endOne ?_) hnodup
    intro heq
    exact hnot (heq ▸ List.mem_map_of_mem he')

theorem Inv.end (h : Inv w) (hends : ∀ e ∈ endings, Ends w i e)
    (hnodup : (endings.map Ending.sessionId).Nodup) : Inv ((endings.foldl World.endOne w).close i) ∧
      Final w ((endings.foldl World.endOne w).close i) := by
  have hsessions := sessions_foldl_endOne endings w
  obtain ⟨htasks, hlocks, htransactions⟩ := foldl_endOne_same endings w
  have hended : ∀ s ∈ w.sessions, s.endedAt ≠ none → endAll endings s = s := by
    intro s hs hne
    refine endAll_of_ne fun e he hid ↦ hne ?_
    exact (hends e he).notEnded s hs hid
  have hleaves : ∀ j ≠ i,
      Leaves w ((endings.foldl World.endOne w).close i) j (endAll endings) [] := by
    intro j hj
    refine ⟨hsessions.trans (append_nil _).symm, same_endAll endings, ?_,
      forall_mem_nil _, ?_, ?_, [], ?_, forall_mem_nil _⟩
    · intro s hs hne
      rw [hended s hs hne]
    · intro s hs hlock
      rw [endAll_of_ne]
      intro e he hid
      rw [hid, (hends e he).lock] at hlock
      exact hj (some.inj hlock).symm
    · intro sid hlock
      exact locks_close hj (hlocks ▸ hlock)
    · exact htasks.trans (append_nil _).symm
  constructor
  · exact h.next (x := none) ((h.sound.foldl_endOne hends hnodup).same rfl rfl rfl rfl rfl)
      (by rw [← htransactions]; rfl) hleaves fun _ ht ↦ (nomatch ht)
  · intro s hs hne
    refine ⟨s, ?_, rfl, rfl, rfl⟩
    change s ∈ (endings.foldl World.endOne w).sessions
    rw [hsessions]
    exact List.mem_map.2 ⟨s, hs, hended s hs hne⟩

/-! ## The beginning of a session, and its Task -/

theorem Sound.activate (h : Sound w) (hfresh : ∀ s ∈ w.sessions, s.sessionId ≠ q.sessionId)
    (hquiet : ∀ s ∈ w.sessions, ¬ActiveFor q.accountId q.now s) :
    Sound { w with sessions := w.sessions ++ [q.row] } := by
  have hsplit : ∀ {P : SessionRow → Prop}, (∀ s ∈ w.sessions, P s) → P q.row →
      ∀ s ∈ w.sessions ++ [q.row], P s := by
    intro P hall hrow s hs
    rcases mem_append.1 hs with hs | hs
    · exact hall s hs
    · rw [mem_singleton.1 hs]
      exact hrow
  have hexpired : ∀ s ∈ w.sessions, s.accountId = q.accountId → s.endedAt = none →
      s.expiresAt ≤ q.now := by
    intro s hs haccount hopen
    by_contra hlt
    exact hquiet s hs ⟨haccount, hopen, Int.not_le.1 hlt⟩
  constructor <;> dsimp only
  · rw [map_append, nodup_append]
    refine ⟨h.ids, by simp, ?_⟩
    intro x hx y hy
    obtain ⟨s, hs, rfl⟩ := List.mem_map.1 hx
    obtain rfl : y = q.sessionId := by simpa [Activation.row] using hy
    exact hfresh s hs
  · refine hsplit h.events ?_
    rw [map_eq_nil_iff.2]
    · rfl
    · rw [filter_eq_nil_iff]
      intro e he hid
      obtain ⟨s, hs, heq⟩ := h.known e he
      exact hfresh s hs (heq.trans (of_decide_eq_true hid))
  · exact hsplit h.ended rfl
  · intro e he
    obtain ⟨s, hs, hid⟩ := h.known e he
    exact ⟨s, mem_append_left _ hs, hid⟩
  · refine hsplit (fun s hs ↦ hsplit (h.apart s hs) ?_) (hsplit ?_ ?_)
    · exact fun haccount hopen _ _ ↦ .inl (hexpired s hs haccount hopen)
    · exact fun s hs haccount _ hopen _ ↦ .inr (hexpired s hs haccount.symm hopen)
    · exact fun _ _ _ hne ↦ absurd rfl hne
  · refine hsplit (fun s hs hended hnone ↦ h.followed s hs hended hnone) ?_
    exact fun hended ↦ absurd rfl hended
  · exact h.once
  · exact hsplit h.opened fun t ht ↦ (nomatch ht)
  · exact h.refused

theorem Inv.activate (h : Inv w) {seen : ℕ} (hi : w.transactions i = some (.activate q seen))
    (hfresh : ∀ s ∈ w.sessions, s.sessionId ≠ q.sessionId)
    (hquiet : ∀ s ∈ w.sessions.drop seen, ¬ActiveFor q.accountId q.now s) :
    Inv { w.close i with sessions := w.sessions ++ [q.row] } := by
  obtain ⟨-, hseen⟩ := h.knows i _ hi
  have hall : ∀ s ∈ w.sessions, ¬ActiveFor q.accountId q.now s := by
    intro s hs
    rw [← take_append_drop seen w.sessions] at hs
    rcases mem_append.1 hs with hs | hs
    · exact hseen s hs
    · exact hquiet s hs
  have hleaves : ∀ j ≠ i,
      Leaves w { w.close i with sessions := w.sessions ++ [q.row] } j id [q.row] := by
    intro j hj
    refine ⟨by rw [List.map_id], SessionRow.Same.refl, fun _ _ _ ↦ rfl, ?_, fun _ _ _ ↦ rfl,
      fun _ hlock ↦ locks_close hj hlock, [], (append_nil _).symm, forall_mem_nil _⟩
    intro s hs
    rw [mem_singleton.1 hs]
    rfl
  exact h.next (x := none) ((h.sound.activate hfresh hall).same rfl rfl rfl rfl rfl) rfl hleaves
    fun _ ht ↦ (nomatch ht)

theorem Sound.posthoc (h : Sound w)
    (hcreated : o.created = [] ∨ ∃ t, o.created = [(sid, t)] ∧ sid ∉ w.tasks.map Prod.fst)
    (hopened : ∀ t, o.posthocTaskId = some t → (sid, t) ∈ w.tasks ++ o.created)
    (hfollowed : o.posthocTaskId = none → w.Followed sid) : Sound { w with
      sessions := w.sessions.map (postRow sid o)
      tasks := w.tasks ++ o.created
      todo := w.todo.erase sid } := by
  have hsame := same_postRow sid o
  have hmap : ∀ {P : SessionRow → Prop}, (∀ s ∈ w.sessions, P (postRow sid o s)) →
      ∀ s ∈ w.sessions.map (postRow sid o), P s := by
    intro P hall s hs
    obtain ⟨s₀, hs₀, rfl⟩ := List.mem_map.1 hs
    exact hall s₀ hs₀
  constructor <;> dsimp only
  · rw [List.map_map]
    have : SessionRow.sessionId ∘ postRow sid o = SessionRow.sessionId :=
      funext fun s ↦ (hsame s).sessionId
    rw [this]
    exact h.ids
  · refine hmap fun s hs ↦ ?_
    rw [(hsame s).sessionId, endedReason_postRow]
    exact h.events s hs
  · refine hmap fun s hs ↦ ?_
    rw [endedReason_postRow, endedAt_postRow]
    exact h.ended s hs
  · intro e he
    obtain ⟨s, hs, hid⟩ := h.known e he
    exact ⟨_, List.mem_map_of_mem hs, (hsame s).sessionId.trans hid⟩
  · refine hmap fun s hs ↦ hmap fun s' hs' haccount hopen hopen' hne ↦ ?_
    rw [(hsame s).accountId, (hsame s').accountId] at haccount
    rw [endedAt_postRow] at hopen hopen'
    rw [(hsame s).expiresAt, (hsame s').expiresAt, (hsame s).startedAt, (hsame s').startedAt]
    exact h.apart s hs s' hs' haccount hopen hopen' fun heq ↦ hne (heq ▸ rfl)
  · refine hmap fun s hs hended hnone ↦ ?_
    rw [endedAt_postRow] at hended
    rw [(hsame s).sessionId]
    have hold : s.posthocTaskId = none ∧ s.sessionId ≠ sid := by
      unfold postRow at hnone
      split_ifs at hnone with hsome
      · obtain ⟨-, hsome⟩ := hsome
        change o.posthocTaskId = none at hnone
        rw [hnone] at hsome
        cases hsome
      · refine ⟨hnone, fun hid ↦ ?_⟩
        have hfollowed := hfollowed (by simpa [hid] using hsome) s hs hid
        rw [hnone] at hfollowed
        cases hfollowed
    exact (mem_erase_of_ne hold.2).2 (h.followed s hs hended hold.1)
  · rcases hcreated with hnil | ⟨t, ht, hid⟩
    · rw [hnil, append_nil]
      exact h.once
    · rw [ht, map_append, nodup_append]
      refine ⟨h.once, by simp, ?_⟩
      intro x hx y hy heq
      obtain rfl : y = sid := by simpa using hy
      exact hid (heq ▸ hx)
  · refine hmap fun s hs t ht ↦ ?_
    rw [(hsame s).sessionId]
    unfold postRow at ht
    split_ifs at ht with hsome
    · rw [hsome.1]
      exact hopened t ht
    · exact mem_append_left _ (h.opened s hs t ht)
  · exact h.refused

theorem Inv.posthoc (h : Inv w) (hi : w.transactions i = some (.posthoc sid o))
    (hfollowed : o.posthocTaskId = none → w.Followed sid) : Inv { w.close i with
      sessions := w.sessions.map (postRow sid o)
      tasks := w.tasks ++ o.created
      todo := w.todo.erase sid } := by
  obtain ⟨hlock, hcreated, hopened⟩ := h.knows i _ hi
  have hleaves : ∀ j ≠ i, Leaves w { w.close i with
      sessions := w.sessions.map (postRow sid o)
      tasks := w.tasks ++ o.created
      todo := w.todo.erase sid } j (postRow sid o) [] := by
    intro j hj
    refine ⟨(append_nil _).symm, same_postRow sid o, fun s _ _ ↦ endedAt_postRow sid o s,
      forall_mem_nil _, fun s _ _ ↦ endedAt_postRow sid o s,
      fun _ hlock ↦ locks_close hj hlock, o.created, rfl, fun c hc hother ↦ ?_⟩
    have hid : c.1 = sid := by
      rcases hcreated with hnil | ⟨t, ht, -⟩
      · rw [hnil] at hc
        cases hc
      · rw [ht] at hc
        rw [mem_singleton.1 hc]
    rw [hid, hlock] at hother
    exact hj (some.inj hother).symm
  exact h.next (x := none)
    ((h.sound.posthoc hcreated hopened hfollowed).same rfl rfl rfl rfl rfl) rfl hleaves
    fun _ ht ↦ (nomatch ht)

/-! ## The first statements -/

theorem load_eq (h : w.load sid = some s) : s ∈ w.sessions ∧ s.sessionId = sid :=
  ⟨mem_of_find?_eq_some h, by simpa using List.find?_some h⟩

theorem Sound.ends (h : Sound w) (i : ℕ) (hs : s ∈ w.sessions) (hopen : s.endedAt = none)
    {reason : EndedReason} (he : w.ending s.sessionId now reason = some e) :
    e.sessionId = s.sessionId ∧ Ends (w.lock i s.sessionId) i e := by
  rw [World.ending, h.append hs hopen reason] at he
  obtain rfl := some.inj he
  refine ⟨rfl, update_self _ _ _, rfl, ⟨s, hs, rfl⟩, fun s' hs' hid ↦ ?_⟩
  rw [h.eq_of_id hs' hs hid]
  exact hopen

theorem Inv.terminate (h : Inv w) {actor : String}
    (hstep : w.step (.terminate i sid actor now) = some w') : Inv w' := by
  rw [World.step] at hstep
  split at hstep
  · rename_i s hi hload
    split_ifs at hstep with hchecks
    obtain ⟨hfree, hactive, -⟩ := hchecks
    obtain ⟨e, he, rfl⟩ := map_eq_some_iff.1 hstep
    obtain ⟨hs, rfl⟩ := load_eq hload
    exact h.lock hfree (h.sound.ends i hs (isNone_iff_eq_none.1 hactive) he).2
  · cases hstep

theorem Inv.select (h : Inv w) (hstep : w.step (.select i now) = some w') : Inv w' := by
  rw [World.step] at hstep
  split at hstep
  · obtain rfl := some.inj hstep
    refine h.begin ⟨?_, nodup_nil, forall_mem_nil _, fun id hid ↦ ?_⟩
    · exact h.sound.ids.sublist (filter_sublist.map _)
    · obtain ⟨s, hs, rfl⟩ := List.mem_map.1 hid
      exact ⟨s, mem_of_mem_filter hs, rfl⟩
  · cases hstep

theorem Inv.expire (h : Inv w) (hopen : ∀ s ∈ w.sessions, s.sessionId = sid → s.endedAt = none)
    (hstep : w.step (.expire i sid now) = some w') : Inv w' := by
  rw [World.step] at hstep
  split at hstep
  · rename_i candidates ended hi
    split_ifs at hstep with hchecks
    obtain ⟨hmem, hfree⟩ := hchecks
    obtain ⟨hnodup, hdistinct, hends, hknown⟩ := h.knows i _ hi
    obtain ⟨s, hs, rfl⟩ := hknown sid hmem
    split at hstep
    · rename_i e he
      obtain rfl := some.inj hstep
      obtain ⟨hid, hnew⟩ := h.sound.ends i hs (hopen s hs rfl) he
      refine h.lock hfree ⟨hnodup.erase _, ?_, fun e' he' ↦ ?_, fun id hid ↦ ?_⟩
      · rw [map_append, nodup_append]
        refine ⟨hdistinct, by simp, ?_⟩
        intro x hx y hy heq
        obtain ⟨e', he', rfl⟩ := List.mem_map.1 hx
        obtain rfl : y = e.sessionId := by simpa using hy
        rw [hid] at heq
        exact (hends e' he').2 (heq ▸ hmem)
      · rcases mem_append.1 he' with he' | he'
        · obtain ⟨hold, hnot⟩ := hends e' he'
          refine ⟨⟨?_, hold.events, hold.known, hold.notEnded⟩,
            fun hmem' ↦ hnot (mem_of_mem_erase hmem')⟩
          change Function.update w.locks s.sessionId (some i) e'.sessionId = some i
          by_cases heq : e'.sessionId = s.sessionId
          · rw [heq, update_self]
          · rw [update_of_ne heq]
            exact hold.lock
        · rw [mem_singleton.1 he', hid]
          exact ⟨hnew, hnodup.not_mem_erase⟩
      · exact hknown id (mem_of_mem_erase hid)
    · rename_i hnone
      rw [World.ending, h.sound.append hs (hopen s hs rfl)] at hnone
      cases hnone
  · cases hstep

theorem openPosthoc_eq (w : World) (s : SessionRow) (taskId : Option String) (verified : Bool) :
    ((w.openPosthoc s taskId verified).created = [] ∨
      ∃ t, (w.openPosthoc s taskId verified).created = [(s.sessionId, t)] ∧
        s.sessionId ∉ w.tasks.map Prod.fst) ∧
      ∀ t, (w.openPosthoc s taskId verified).posthocTaskId = some t →
        (s.sessionId, t) ∈ w.tasks ++ (w.openPosthoc s taskId verified).created := by
  unfold World.openPosthoc
  split
  · exact ⟨.inl rfl, fun t ht ↦ (nomatch ht)⟩
  · unfold World.openPosthocVerification
    cases taskId with
    | none => exact ⟨.inl rfl, fun t ht ↦ (nomatch ht)⟩
    | some new =>
      dsimp only
      -- a Task that has been created before is found under its key
      cases hlookup : w.tasks.lookup s.sessionId with
      | none =>
        refine ⟨.inr ⟨new, rfl, fun hmem ↦ ?_⟩, fun t ht ↦ ?_⟩
        · obtain ⟨c, hc, hid⟩ := List.mem_map.1 hmem
          have := lookup_eq_none_iff.1 hlookup c hc
          simp [hid] at this
        · split_ifs at ht
          obtain rfl := some.inj ht
          exact mem_append_right _ (mem_singleton_self _)
      | some =>
        refine ⟨.inl rfl, fun t ht ↦ ?_⟩
        dsimp only at ht
        split_ifs at ht
        obtain rfl := some.inj ht
        obtain ⟨l₁, l₂, heq, -⟩ := lookup_eq_some_iff.1 hlookup
        rw [heq]
        simp

theorem Inv.openPosthoc (h : Inv w) {taskId : Option String} {verified : Bool}
    (hstep : w.step (.posthoc i sid taskId verified) = some w') : Inv w' := by
  rw [World.step] at hstep
  split at hstep
  · rename_i s hi hload
    split_ifs at hstep with hchecks
    obtain rfl := some.inj hstep
    obtain ⟨hs, rfl⟩ := load_eq hload
    obtain ⟨hcreated, hopened⟩ := openPosthoc_eq w s taskId verified
    exact h.lock hchecks.2 ⟨update_self _ _ _, hcreated, hopened⟩
  · cases hstep

/-! ## Runs -/

theorem Final.of_mem (h : ∀ s ∈ w.sessions, s ∈ w'.sessions) : Final w w' :=
  fun s hs _ ↦ ⟨s, h s hs, rfl, rfl, rfl⟩

theorem Final.of_eq (h : w'.sessions = w.sessions) : Final w w' := .of_mem fun _ hs ↦ h ▸ hs

theorem Final.trans {w₁ : World} (h : Final w w₁) (h' : Final w₁ w') : Final w w' := by
  intro s hs hne
  obtain ⟨s₁, hs₁, hid, hat, hreason⟩ := h s hs hne
  obtain ⟨s', hs', hid', hat', hreason'⟩ := h' s₁ hs₁ (hat ▸ hne)
  exact ⟨s', hs', hid'.trans hid, hat'.trans hat, hreason'.trans hreason⟩

theorem Inv.commit (h : Inv w) (horderly : Orderly w (.commit i))
    (hstep : w.step (.commit i) = some w') : Inv w' ∧ Final w w' := by
  rw [World.step] at hstep
  rw [Orderly] at horderly
  cases hi : w.transactions i with
  | none =>
    rw [hi] at hstep
    cases hstep
  | some t =>
    rw [hi] at hstep horderly
    have hknows := h.knows i t hi
    cases t with
    | activate =>
      dsimp only at hstep horderly
      split_ifs at hstep with hfresh
      obtain rfl := some.inj hstep
      exact ⟨h.activate hi hfresh horderly, .of_mem fun _ hs ↦ mem_append_left _ hs⟩
    | terminate e =>
      obtain rfl := some.inj hstep
      have hends : ∀ e' ∈ [e], Ends w i e' := by
        intro e' he'
        rw [mem_singleton.1 he']
        exact hknows
      exact h.end hends (nodup_singleton _)
    | sweep candidates =>
      cases candidates with
      | nil =>
        obtain rfl := some.inj hstep
        exact h.end (fun e he ↦ (hknows.2.2.1 e he).1) hknows.2.1
      | cons => cases hstep
    | posthoc sid o =>
      obtain rfl := some.inj hstep
      refine ⟨h.posthoc hi horderly, fun s hs _ ↦ ⟨_, List.mem_map_of_mem hs, ?_⟩⟩
      exact ⟨(same_postRow sid o s).sessionId, endedAt_postRow sid o s, endedReason_postRow sid o s⟩

theorem Inv.close (h : Inv w) (hsound : Sound w') (hs : w'.sessions = w.sessions)
    (ht : w'.tasks = w.tasks) (htransactions : w'.transactions = (w.close i).transactions)
    (hlocks : w'.locks = (w.close i).locks) : Inv w' :=
  h.next (x := none) hsound htransactions
    (fun _ hj ↦ .of_same hs ht fun _ hid ↦ hlocks ▸ locks_close hj hid) fun _ ht ↦ (nomatch ht)

theorem Inv.step {l : Label} (h : Inv w) (horderly : Orderly w l) (hstep : w.step l = some w') :
    Inv w' ∧ Final w w' := by
  cases l with
  | activate =>
    rw [World.step] at hstep
    split at hstep
    · split_ifs at hstep with hblank hactive
      obtain rfl := some.inj hstep
      refine ⟨h.begin ⟨Nat.le_refl _, fun s hs hfor ↦ hactive ?_⟩, .of_eq rfl⟩
      exact List.any_eq_true.2 ⟨s, mem_of_mem_take hs, decide_eq_true hfor⟩
    · cases hstep
  | terminate =>
    refine ⟨h.terminate hstep, .of_eq ?_⟩
    rw [World.step] at hstep
    split at hstep
    · split_ifs at hstep
      obtain ⟨e, -, rfl⟩ := map_eq_some_iff.1 hstep
      rfl
    · cases hstep
  | select =>
    refine ⟨h.select hstep, .of_eq ?_⟩
    rw [World.step] at hstep
    split at hstep <;> cases hstep
    rfl
  | expire =>
    refine ⟨h.expire horderly hstep, .of_eq ?_⟩
    rw [World.step] at hstep
    split at hstep
    · split_ifs at hstep
      split at hstep <;> cases hstep <;> rfl
    · cases hstep
  | posthoc =>
    refine ⟨h.openPosthoc hstep, .of_eq ?_⟩
    rw [World.step] at hstep
    split at hstep
    · split_ifs at hstep
      cases hstep
      rfl
    · cases hstep
  | commit => exact h.commit horderly hstep
  | stop i =>
    rw [World.step] at hstep
    rw [Orderly] at horderly
    split at hstep
    · rename_i sid o hi
      rw [hi] at horderly
      obtain rfl := some.inj hstep
      exact ⟨h.close ((h.sound.drop horderly).same rfl rfl rfl rfl rfl) rfl rfl rfl rfl, .of_eq rfl⟩
    · obtain rfl := some.inj hstep
      exact ⟨h.close (h.sound.same rfl rfl rfl rfl rfl) rfl rfl rfl rfl, .of_eq rfl⟩
  | lose sid =>
    obtain rfl := some.inj hstep
    refine ⟨⟨h.sound.drop horderly, fun j t ht ↦ ?_⟩, .of_eq rfl⟩
    have hleaves : Leaves w { w with todo := w.todo.erase sid } j id [] :=
      .of_same rfl rfl fun _ hid ↦ hid
    exact hleaves.knows (h.knows j t ht)

theorem Inv.start : Inv World.start where
  sound :=
    { ids := nodup_nil
      events := forall_mem_nil _
      ended := forall_mem_nil _
      known := forall_mem_nil _
      apart := forall_mem_nil _
      followed := forall_mem_nil _
      once := nodup_nil
      opened := forall_mem_nil _
      refused := rfl }
  knows := fun _ _ ht ↦ (nomatch ht)

theorem Run.inv (hrun : Run Orderly w ls w') (h : Inv w) : Inv w' ∧ Final w w' := by
  induction hrun with
  | nil => exact ⟨h, .of_eq rfl⟩
  | cons hstep hC _ ih =>
    obtain ⟨h₁, hfinal⟩ := h.step hC hstep
    obtain ⟨h', hfinal'⟩ := ih h₁
    exact ⟨h', hfinal.trans hfinal'⟩

theorem Sound.proper (h : Sound w) : Proper w where
  single := by
    rintro s hs s' hs' haccount t ⟨hopen, hstart, hend⟩ ⟨hopen', hstart', hend'⟩
    by_contra hne
    rcases h.apart s hs s' hs' haccount hopen hopen' hne with hle | hle
    · exact Int.lt_irrefl t (Int.lt_of_lt_of_le hend (Int.le_trans hle hstart'))
    · exact Int.lt_irrefl t (Int.lt_of_lt_of_le hend' (Int.le_trans hle hstart))
  events := h.events
  ended := h.ended
  sweeps := h.refused
  followed := fun s hs hne hnone ↦ .inl (h.followed s hs hne hnone)
  once := h.once
  opened := h.opened

/-- When nobody is overtaken and no Task is given up, sessions open and close properly. -/
theorem sessions_proper {w w' : World} {ls ls' : List Label} (hrun : Run Orderly World.start ls w)
    (hrun' : Run Orderly w ls' w') : Proper w ∧ Final w w' := by
  obtain ⟨h, -⟩ := hrun.inv .start
  exact ⟨h.sound.proper, (hrun'.inv h).2⟩

/-! ## Runs on two accounts -/

/-- The run of a list of statements that all meet a condition. -/
def World.runLabels (C : World → Label → Prop) [∀ w l, Decidable (C w l)] (w : World) :
    List Label → Option World
  | [] => some w
  | l :: ls => if C w l then (w.step l).bind fun w₁ ↦ w₁.runLabels C ls else none

theorem World.run_of_runLabels {C : World → Label → Prop} [∀ w l, Decidable (C w l)]
    {w w' : World} (h : w.runLabels C ls = some w') : Run C w ls w' :=
  related_of_run h (fun _ ↦ rfl) (fun _ _ _ ↦ rfl) .nil .cons

namespace Sample

def activation (sessionId accountId : String) (now : Time) : Activation where
  sessionId := sessionId
  accountId := accountId
  scope := "restore DB access"
  reason := "primary admin path down"
  now := now
  ttl := 3600 * 1000000

/-- A session that a sweep ends, up to the commit of the Task. -/
def swept : List Label :=
  [.activate 0 (activation "bg-1" "owner" 0), .commit 0, .select 1 3600000000,
    .expire 1 "bg-1" 3600000001, .commit 1, .posthoc 2 "bg-1" (some "task-1") true, .commit 2]

def reopened : List Label :=
  [.activate 0 (activation "bg-2" "owner" 3700000000), .commit 0,
    .terminate 1 "bg-2" "owner" 3800000000, .commit 1]

/-- Two activations at once. One session is ended while a sweep has selected it, by a process that
is gone before the Task is opened. -/
def overtaken : List Label :=
  [.activate 0 (activation "bg-1" "owner" 0), .activate 1 (activation "bg-2" "owner" 0),
    .commit 0, .commit 1, .activate 2 (activation "bg-3" "second" 0), .commit 2,
    .select 3 3600000000, .terminate 4 "bg-3" "second" 3600000000, .commit 4,
    .expire 3 "bg-3" 3600000001, .lose "bg-3"]

def crossing : List Label :=
  [.activate 0 (activation "bg-1" "owner" 0), .commit 0, .select 1 3600000000,
    .select 2 3600000000, .expire 1 "bg-1" 3600000001, .commit 1]

def crossed : List Label := [.expire 2 "bg-1" 3600000002, .commit 2]

end Sample

open Sample

theorem sessions_proper_swept :
    ∃ w w', Run Orderly World.start swept w ∧ Run Orderly w reopened w' ∧
      w.tasks = [("bg-1", "task-1")] ∧ w'.events.length = 2 ∧ Proper w ∧ Final w w' := by
  have hrun : ((World.start.runLabels Orderly swept).any fun w ↦
      w.tasks = [("bg-1", "task-1")] ∧ ((w.runLabels Orderly reopened).any fun w' ↦
        w'.events.length = 2) = true) = true := by decide
  obtain ⟨w, hw, hfacts⟩ := (Option.any_eq_true _ _).1 hrun
  obtain ⟨htasks, hrest⟩ := of_decide_eq_true hfacts
  obtain ⟨w', hw', hevents⟩ := (Option.any_eq_true _ _).1 hrest
  have h := World.run_of_runLabels hw
  have h' := World.run_of_runLabels hw'
  exact ⟨w, w', h, h', htasks, of_decide_eq_true hevents, sessions_proper h h'⟩

/-- An account has two active sessions, the sweep is aborted, and a session that has been ended
never gets a Task. A second sweep ends a session again. -/
theorem sessions_not_proper :
    (∃ w, Run (fun _ _ ↦ True) World.start overtaken w ∧ ¬Proper w ∧ w.refused = ["bg-3"] ∧
      (∃ s ∈ w.sessions, s.endedAt ≠ none ∧ s.posthocTaskId = none ∧ s.sessionId ∉ w.todo ∧
        ¬w.TakesUp s.sessionId) ∧
      ∃ s ∈ w.sessions, ∃ s' ∈ w.sessions, s ≠ s' ∧ s.accountId = s'.accountId ∧ s.ActiveAt 0 ∧
        s'.ActiveAt 0) ∧ ∃ w w', Run (fun _ _ ↦ True) World.start crossing w ∧
        Run (fun _ _ ↦ True) w crossed w' ∧ ¬Final w w' := by
  constructor
  · have hrun : ((World.start.runLabels (fun _ _ ↦ True) overtaken).any fun w ↦
        w.refused = ["bg-3"] ∧ (∃ s ∈ w.sessions, s.endedAt ≠ none ∧ s.posthocTaskId = none ∧
          s.sessionId ∉ w.todo ∧ ∀ q ∈ w.sessions, q.sessionId = s.sessionId → q.endedAt ≠ none) ∧
        ∃ s ∈ w.sessions, ∃ s' ∈ w.sessions, s ≠ s' ∧ s.accountId = s'.accountId ∧
          s.ActiveAt 0 ∧ s'.ActiveAt 0) = true := by decide
    obtain ⟨w, hw, hfacts⟩ := (Option.any_eq_true _ _).1 hrun
    obtain ⟨hrefused, ⟨s, hs, hended, hnone, htodo, hall⟩, htwo⟩ := of_decide_eq_true hfacts
    refine ⟨w, World.run_of_runLabels hw, fun h ↦ ?_, hrefused, ⟨s, hs, hended, hnone, htodo, ?_⟩,
      htwo⟩
    · rw [h.sweeps] at hrefused
      cases hrefused
    · rintro ⟨now, hmem⟩
      obtain ⟨q, hq, hid⟩ := List.mem_map.1 hmem
      obtain ⟨hq, hopen⟩ := mem_filter.1 hq
      exact hall q hq hid (of_decide_eq_true hopen).1
  · have hrun : ((World.start.runLabels (fun _ _ ↦ True) crossing).any fun w ↦
        ((w.runLabels (fun _ _ ↦ True) crossed).any fun w' ↦
          ∃ s ∈ w.sessions, s.endedAt ≠ none ∧ ∀ s' ∈ w'.sessions, s'.sessionId = s.sessionId →
            s'.endedAt ≠ s.endedAt) = true) = true := by decide
    obtain ⟨w, hw, hfacts⟩ := (Option.any_eq_true _ _).1 hrun
    obtain ⟨w', hw', hfacts'⟩ := (Option.any_eq_true _ _).1 (of_decide_eq_true hfacts)
    obtain ⟨s, hs, hended, hall⟩ := of_decide_eq_true hfacts'
    refine ⟨w, w', World.run_of_runLabels hw, World.run_of_runLabels hw', fun h ↦ ?_⟩
    obtain ⟨s', hs', hid, hat, -⟩ := h s hs hended
    exact hall s' hs' hid hat

end AgentColab.BreakGlass
