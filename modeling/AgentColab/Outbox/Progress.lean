import AgentColab.Enumeration.Cut
import AgentColab.Outbox.Partition
import Mathlib.Data.Finset.Max

/-!
# Progress of the channel drain

The batch is cut before the rows of other kinds are left out, and a row that is left out keeps its
place. A pass therefore reaches a row that it can deliver exactly when fewer rows that it cannot
deliver come first than the batch holds.
-/

namespace AgentColab.Outbox

open List

section

variable {inp : Input} {family : Family} {providers : String → Option ChannelProvider}
  {kinds : List String} {t : Tables}

/-- A row that is due and that the drain hands to a provider when it selects it. -/
def Row.Waiting (inp : Input) (providers : String → Option ChannelProvider) (kinds : List String)
    (r : Row) : Prop :=
  r.Due inp ∧ deliverable providers kinds r = true

instance (r : Row) : Decidable (r.Waiting inp providers kinds) := by
  unfold Row.Waiting
  infer_instance

/-- The number of rows that are due before this one and cannot be delivered. -/
def Tables.blockers (t : Tables) (inp : Input) (providers : String → Option ChannelProvider)
    (kinds : List String) (r : Row) : ℕ :=
  ((t.due inp).filter fun q ↦ q.rank < r.rank ∧ deliverable providers kinds q = false).length

/-- Where something is waiting, it is not behind a whole batch of rows that cannot be delivered. -/
def Unblocked (providers : String → Option ChannelProvider) (kinds : List String) (t : Tables)
    (inp : Input) : Prop :=
  (∃ r ∈ t.rows, r.Waiting inp providers kinds) →
    ∃ r ∈ t.rows, r.Waiting inp providers kinds ∧ t.blockers inp providers kinds r < inp.batch

/-- Where something is waiting, the pass hands such a row to a provider. -/
def Attempts (family : Family) (providers : String → Option ChannelProvider) (kinds : List String)
    (t : Tables) (inp : Input) : Prop :=
  (∃ r ∈ t.rows, r.Waiting inp providers kinds) →
    ∃ x ∈ (drainChannels inp family providers kinds t).handed,
      x.row ∈ t.rows ∧ x.row.Waiting inp providers kinds

/-! ## What a pass selects -/

theorem rank_injOn (t : Tables) : Set.InjOn Row.rank {r | r ∈ t.rows} := by
  intro a ha b hb h
  refine inj_on_of_nodup_map t.primaryKey ha hb ?_
  exact congrArg Prod.snd (toLex_inj.1 h)

theorem pairwise_due (t : Tables) (inp : Input) : ((t.due inp).map Row.rank).Pairwise (· < ·) := by
  let le : Row → Row → Prop := fun a b ↦ a.rank ≤ b.rank
  have : Std.Total le := ⟨fun a b ↦ le_total a.rank b.rank⟩
  have : IsTrans Row le := ⟨fun _ _ _ hab hbc ↦ le_trans hab hbc⟩
  have hsorted : (t.due inp).Pairwise le := pairwise_insertionSort le _
  have hnodup : (t.due inp).Nodup :=
    (perm_insertionSort le _).nodup_iff.2 ((List.Nodup.of_map _ t.primaryKey).filter _)
  rw [pairwise_map]
  refine (hsorted.and hnodup).imp_of_mem fun {a b} ha hb ⟨hle, hne⟩ ↦ lt_of_le_of_ne hle fun h ↦ ?_
  exact hne (rank_injOn t (mem_due.1 ha).1 (mem_due.1 hb).1 h)

variable {r : Row} {inp' : Input}

/-- A row is selected when fewer rows are due before it than the batch holds. -/
theorem mem_select : r ∈ t.select inp ↔
      r ∈ t.due inp ∧ ((t.due inp).filter fun q ↦ q.rank < r.rank).length < inp.batch :=
  Enumeration.mem_take_iff (pairwise_due t inp)

theorem exists_first (h : ∃ r ∈ t.rows, r.Waiting inp providers kinds) :
    ∃ r ∈ t.rows, r.Waiting inp providers kinds ∧
      (∀ q ∈ t.rows, q.Waiting inp providers kinds → r.rank ≤ q.rank) ∧
      t.blockers inp providers kinds r = ((t.due inp).filter fun q ↦ q.rank < r.rank).length := by
  obtain ⟨q, hq, hwaiting⟩ := h
  have hne : (t.rows.filter fun r ↦ r.Waiting inp providers kinds).toFinset.Nonempty :=
    ⟨q, by simpa using ⟨hq, hwaiting⟩⟩
  obtain ⟨r, hr, hmin⟩ := Finset.exists_min_image _ Row.rank hne
  simp only [List.mem_toFinset, mem_filter, decide_eq_true_eq] at hr hmin
  have hfirst : ∀ q ∈ t.rows, q.Waiting inp providers kinds → r.rank ≤ q.rank :=
    fun q hq hw ↦ hmin q ⟨hq, hw⟩
  refine ⟨r, hr.1, hr.2, hfirst, ?_⟩
  rw [Tables.blockers]
  congr 1
  refine filter_congr fun q hq ↦ ?_
  obtain ⟨hmem, hdue⟩ := mem_due.1 hq
  refine decide_eq_decide.2 ⟨And.left, fun hlt ↦ ⟨hlt, ?_⟩⟩
  rw [← Bool.not_eq_true]
  exact fun hdel ↦ absurd (hfirst q hmem ⟨hdue, hdel⟩) (not_le_of_gt hlt)

theorem blockers_mono {q : Row} (h : r.rank ≤ q.rank) :
    t.blockers inp providers kinds r ≤ t.blockers inp providers kinds q := by
  refine (monotone_filter_right _ fun x hx ↦ ?_).length_le
  rw [decide_eq_true_eq] at hx ⊢
  exact ⟨hx.1.trans_le h, hx.2⟩

theorem exists_selected (h : Unblocked providers kinds t inp)
    (hsome : ∃ r ∈ t.rows, r.Waiting inp providers kinds) :
    ∃ r ∈ t.select inp, r ∈ t.rows ∧ r.Waiting inp providers kinds ∧
      ∀ q ∈ t.rows, q.Waiting inp providers kinds → r.rank ≤ q.rank := by
  obtain ⟨r, hr, hwaiting, hfirst, hblockers⟩ := exists_first hsome
  obtain ⟨q, hq, hqw, hlt⟩ := h hsome
  refine ⟨r, mem_select.2 ⟨mem_due.2 ⟨hr, hwaiting.1⟩, ?_⟩, hr, hwaiting, hfirst⟩
  rw [← hblockers]
  exact (blockers_mono (hfirst q hq hqw)).trans_lt hlt

/-! ## What a pass hands over -/

theorem rows_handed_foldl (rows : List Row) (p : Pass) :
    (rows.foldl (deliverRow inp family providers kinds) p).handed.map (·.row) =
      p.handed.map (·.row) ++ rows.filter (deliverable providers kinds) := by
  induction rows generalizing p with
  | nil => simp
  | cons r _ ih =>
    rw [foldl_cons, ih]
    rcases handed_deliverRow inp p r with ⟨hdel, h⟩ | ⟨hdel, accepted, h⟩
    · rw [h, filter_cons_of_neg (by simp [hdel])]
    · rw [h, filter_cons_of_pos hdel, map_append, append_assoc]
      rfl

theorem rows_handed (inp : Input) (family : Family) (providers : String → Option ChannelProvider)
    (kinds : List String) (t : Tables) :
    (drainChannels inp family providers kinds t).handed.map (·.row) =
      (t.select inp).filter (deliverable providers kinds) :=
  rows_handed_foldl _ _

/-- **A pass attempts a row that is waiting exactly when it is not blocked.** -/
theorem attempts_iff_unblocked :
    Attempts family providers kinds t inp ↔ Unblocked providers kinds t inp := by
  have hhanded := rows_handed inp family providers kinds t
  constructor
  · intro h hsome
    obtain ⟨x, hx, hmem, hwaiting⟩ := h hsome
    have hselect : x.row ∈ (t.select inp).filter (deliverable providers kinds) := by
      rw [← hhanded]
      exact List.mem_map_of_mem hx
    refine ⟨x.row, hmem, hwaiting, ?_⟩
    refine lt_of_le_of_lt ?_ (mem_select.1 (mem_filter.1 hselect).1).2
    refine (monotone_filter_right _ fun q hq ↦ ?_).length_le
    rw [decide_eq_true_eq] at hq ⊢
    exact hq.1
  · intro h hsome
    obtain ⟨r, hselect, hr, hwaiting, -⟩ := exists_selected h hsome
    have hmem : r ∈ (drainChannels inp family providers kinds t).handed.map (·.row) := by
      rw [hhanded]
      exact mem_filter.2 ⟨hselect, hwaiting.2⟩
    obtain ⟨x, hx, rfl⟩ := List.mem_map.1 hmem
    exact ⟨x, hx, hr, hwaiting⟩

/-! ## Passes with providers that succeed -/

/-- Providers that always succeed. -/
def Accepting (providers : String → Option ChannelProvider) : Prop :=
  ∀ key provider, providers key = some provider → ∀ r, ∃ postId, provider r = .ok postId

/-- A pass marks the rows that it delivers, and changes no other row. -/
structure Marks (L : List Row) (providers : String → Option ChannelProvider) (kinds : List String)
    (g : Row → Row) : Prop where
  id : ∀ r, (g r).id = r.id
  kept : ∀ r, g r = r ∨ (g r).delivery.status = .sent
  marked : ∀ q ∈ L, deliverable providers kinds q = true → ∀ r, r.id = q.id →
    (g r).delivery.status = .sent

theorem exists_marks (haccepting : Accepting providers) (rows : List Row) (p : Pass) :
    ∃ g, (rows.foldl (deliverRow inp family providers kinds) p).tables.rows = p.tables.rows.map g ∧
      Marks rows providers kinds g := by
  induction rows generalizing p with
  | nil =>
    exact ⟨fun r ↦ r, by simp, fun _ ↦ rfl, fun _ ↦ .inl rfl, fun q hq ↦ absurd hq not_mem_nil⟩
  | cons q _ ih =>
    obtain ⟨g, hrows, hg⟩ := ih (deliverRow inp family providers kinds p q)
    rw [foldl_cons, hrows]
    cases hdel : deliverable providers kinds q with
    | false =>
      have hsame : (deliverRow inp family providers kinds p q).tables = p.tables := by
        rw [deliverable, Bool.and_eq_false_iff] at hdel
        rw [deliverRow]
        rcases hdel with hkind | hprovider
        · rw [hkind]
          rfl
        · split
          · rfl
          · split
            · rfl
            · next provider heq => simp [heq] at hprovider
      rw [hsame]
      refine ⟨g, rfl, hg.id, hg.kept, fun r hr hdel' ↦ ?_⟩
      rcases mem_cons.1 hr with rfl | hr
      · rw [hdel] at hdel'
        cases hdel'
      · exact hg.marked r hr hdel'
    | true =>
      rw [deliverable, Bool.and_eq_true] at hdel
      obtain ⟨provider, hprovider⟩ := Option.isSome_iff_exists.1 hdel.2
      obtain ⟨postId, hok⟩ := haccepting _ provider hprovider q
      have hupdate : (deliverRow inp family providers kinds p q).tables.rows =
          (p.tables.update q.id (·.delivered inp)).rows := by
        rw [deliverRow, hdel.1, hprovider]
        simp only [hok]
        rfl
      -- the row of this pass is marked first, and stays marked
      let m : Row → Row := fun r ↦
        if r.id = q.id then { r with delivery := r.delivery.delivered inp } else r
      have hm : ∀ r, (m r).id = r.id := fun r ↦ by
        simp only [m]
        split <;> rfl
      have hmark : ∀ r, r.id = q.id → (m r).delivery.status = .sent := fun r hr ↦ by
        simp only [m, if_pos hr]
        rfl
      have hgm : ∀ r, (m r).delivery.status = .sent → (g (m r)).delivery.status = .sent := by
        intro r hr
        rcases hg.kept (m r) with h | h
        · rwa [h]
        · exact h
      refine ⟨g ∘ m, by rw [hupdate, Tables.update, List.map_map], fun r ↦ ?_, fun r ↦ ?_, ?_⟩
      · rw [Function.comp_apply, hg.id, hm]
      · by_cases hr : r.id = q.id
        · exact .inr (hgm r (hmark r hr))
        · have hsame : m r = r := if_neg hr
          rw [Function.comp_apply, hsame]
          exact hg.kept r
      · intro q' hq' hdel' r hr
        rcases mem_cons.1 hq' with rfl | hq'
        · exact hgm r (hmark r hr)
        · exact hg.marked q' hq' hdel' (m r) ((hm r).trans hr)

/-- The rows that are waiting at `inp`. -/
def Tables.waiting (t : Tables) (inp : Input) (providers : String → Option ChannelProvider)
    (kinds : List String) : List Row :=
  t.rows.filter fun r ↦ r.Waiting inp providers kinds

/-- A later pass over the same Workspace that finds the same rows locked. -/
structure Input.Later (inp inp' : Input) : Prop where
  workspace : inp'.workspaceId = inp.workspaceId
  now : inp.now ≤ inp'.now
  locked : inp'.locked = inp.locked

theorem Row.Waiting.later (h : inp.Later inp') (hr : r.Waiting inp providers kinds) :
    r.Waiting inp' providers kinds := by
  obtain ⟨⟨hws, hpending, hnext, hlocked⟩, hdel⟩ := hr
  exact ⟨⟨hws.trans h.workspace.symm, hpending, hnext.trans h.now, h.locked ▸ hlocked⟩, hdel⟩

theorem exists_waiting_eq (haccepting : Accepting providers) (inp inp' : Input) (family : Family)
    (kinds : List String) (t : Tables) : ∃ g, Marks (t.select inp') providers kinds g ∧
      (drainChannels inp' family providers kinds t).tables.waiting inp providers kinds =
        ((t.waiting inp providers kinds).filter fun x ↦ (g x).Waiting inp providers kinds).map g := by
  obtain ⟨g, hrows, hg⟩ := exists_marks haccepting (t.select inp') ⟨t, {}, []⟩
  refine ⟨g, hg, ?_⟩
  rw [Tables.waiting, drainChannels, hrows, List.filter_map, Tables.waiting, List.filter_filter]
  congr 1
  refine filter_congr fun x _ ↦ ?_
  suffices hback : (g x).Waiting inp providers kinds → x.Waiting inp providers kinds by
    simpa using hback
  intro hx
  rcases hg.kept x with h | h
  · rwa [h] at hx
  · exact absurd (h.symm.trans hx.1.2.1) (by decide)

theorem length_waiting_lt (family : Family) (haccepting : Accepting providers)
    (hlater : inp.Later inp') (hunblocked : Unblocked providers kinds t inp')
    (hsome : t.waiting inp providers kinds ≠ []) :
    ((drainChannels inp' family providers kinds t).tables.waiting inp providers kinds).length <
      (t.waiting inp providers kinds).length := by
  obtain ⟨q, hq⟩ := exists_mem_of_ne_nil _ hsome
  rw [Tables.waiting, mem_filter, decide_eq_true_eq] at hq
  obtain ⟨r, hselect, hr, hwaiting, hfirst⟩ :=
    exists_selected hunblocked ⟨q, hq.1, hq.2.later hlater⟩
  -- the row that is selected first was due no later than `q`
  have hrwaiting : r.Waiting inp providers kinds := by
    have hnext : r.delivery.nextAttemptAt ≤ q.delivery.nextAttemptAt := by
      rcases Prod.Lex.le_iff.1 (hfirst q hq.1 (hq.2.later hlater)) with h | h
      · exact h.le
      · exact h.1.le
    obtain ⟨⟨hws, hpending, -, hlocked⟩, hdel⟩ := hwaiting
    exact ⟨⟨hws.trans hlater.workspace, hpending, hnext.trans hq.2.1.2.2.1, hlater.locked ▸ hlocked⟩,
      hdel⟩
  obtain ⟨g, hg, heq⟩ := exists_waiting_eq haccepting inp inp' family kinds t
  rw [heq, length_map, length_filter_lt_length_iff_exists]
  refine ⟨r, by simpa [Tables.waiting] using ⟨hr, hrwaiting⟩, ?_⟩
  rw [decide_eq_true_eq]
  intro hw
  exact absurd ((hg.marked r hselect hrwaiting.2 r rfl).symm.trans hw.1.2.1) (by decide)

def passes (family : Family) (providers : String → Option ChannelProvider) (kinds : List String)
    (t : Tables) : List Input → Tables
  | [] => t
  | inp :: inps =>
    passes family providers kinds (drainChannels inp family providers kinds t).tables inps

/-- None of the passes finds what it waits for blocked. -/
def UnblockedAlong (family : Family) (providers : String → Option ChannelProvider)
    (kinds : List String) (t : Tables) : List Input → Prop
  | [] => True
  | inp :: inps => Unblocked providers kinds t inp ∧
    UnblockedAlong family providers kinds (drainChannels inp family providers kinds t).tables inps

theorem waiting_passes {inps : List Input} (haccepting : Accepting providers)
    (hlater : ∀ inp' ∈ inps, inp.Later inp')
    (hunblocked : UnblockedAlong family providers kinds t inps)
    (hlength : (t.waiting inp providers kinds).length ≤ inps.length) :
    (passes family providers kinds t inps).waiting inp providers kinds = [] := by
  induction inps generalizing t with
  | nil => exact length_eq_zero_iff.1 (Nat.le_zero.1 hlength)
  | cons inp' _ ih =>
    refine ih (fun x hx ↦ hlater x (mem_cons_of_mem _ hx)) hunblocked.2 ?_
    by_cases hsome : t.waiting inp providers kinds = []
    · obtain ⟨g, -, heq⟩ := exists_waiting_eq haccepting inp inp' family kinds t
      rw [heq, hsome]
      exact Nat.zero_le _
    · have hless := length_waiting_lt family haccepting
        (hlater inp' mem_cons_self) hunblocked.1 hsome
      rw [length_cons] at hlength
      omega

/-- **Progress of the channel drain.** A pass attempts a row whenever one is waiting, exactly when
what is waiting is not blocked by a whole batch of rows that cannot be delivered. When the
providers succeed and no pass finds its rows blocked, as many passes as rows are waiting leave none
of them. -/
theorem drainChannels_progress_iff (inp : Input) (family : Family)
    (providers : String → Option ChannelProvider) (kinds : List String) (t : Tables) :
    (Attempts family providers kinds t inp ↔ Unblocked providers kinds t inp) ∧
    ∀ inps : List Input, Accepting providers →
      (∀ inp' ∈ inps, inp.Later inp') → UnblockedAlong family providers kinds t inps →
      (t.waiting inp providers kinds).length ≤ inps.length →
      (passes family providers kinds t inps).waiting inp providers kinds = [] := by
  constructor
  · exact attempts_iff_unblocked
  · intro inps haccepting hlater hunblocked hlength
    exact waiting_passes haccepting hlater hunblocked hlength

end

namespace Sample

def town : String → Option ChannelProvider :=
  fun key ↦ if key = "mattermost" then some fun r ↦ .ok ("post-" ++ r.dedupeKey) else none

def queued : Tables where
  rows := [row 1 "notification" "mattermost:ops" 0, row 2 "mattermost.post" "mattermost:town" 1]

theorem accepting_town : Accepting town := by
  intro key provider h r
  rw [town] at h
  split at h
  · obtain rfl := Option.some.inj h
    exact ⟨_, rfl⟩
  · cases h

end Sample

open Sample

theorem drainChannels_progress_queued :
    (passes .channel Sample.town channelKinds queued [input 2]).waiting
      (input 2) Sample.town channelKinds = [] := by
  refine (drainChannels_progress_iff _ _ _ _ _).2 _ accepting_town ?_ ⟨?_, trivial⟩ (by decide)
  · intro inp' h
    obtain rfl := mem_singleton.1 h
    exact ⟨rfl, le_rfl, rfl⟩
  · intro _
    refine ⟨row 2 "mattermost.post" "mattermost:town" 1, by decide, by decide, ?_⟩
    decide

theorem post_blocked_by_notification : ¬∀ (inp : Input) (family : Family)
    (providers : String → Option ChannelProvider) (kinds : List String) (t : Tables),
    Attempts family providers kinds t inp := by
  intro h
  obtain ⟨x, hx, -⟩ := h (input 1) .channel Sample.town channelKinds queued
    ⟨row 2 "mattermost.post" "mattermost:town" 1, by decide, by decide⟩
  have hnone : (drainChannels (input 1) .channel Sample.town channelKinds queued).handed = [] := by
    decide
  rw [hnone] at hx
  exact absurd hx not_mem_nil

end AgentColab.Outbox
